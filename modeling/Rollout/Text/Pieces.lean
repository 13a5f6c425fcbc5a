/-!
# Pieces of a text

A text cut at every occurrence of a separator. There is always at least one piece, and joining the
pieces with the separator gives the text back.
-/

namespace Rollout.Text

/-- The pieces of a text between its separators. -/
def pieces (separator : Char) : List Char → List (List Char)
  | [] => [[]]
  | c :: rest =>
    if c = separator then [] :: pieces separator rest
    else
      match pieces separator rest with
      | [] => [[c]]
      | piece :: others => (c :: piece) :: others

/-- A separator ends a piece. -/
@[simp] theorem pieces_separator (separator : Char) (rest : List Char) :
    pieces separator (separator :: rest) = [] :: pieces separator rest := by
  simp [pieces]

/-- A piece holds no separator. -/
theorem not_mem_of_mem_pieces {separator : Char} {s piece : List Char}
    (h : piece ∈ pieces separator s) : separator ∉ piece := by
  induction s generalizing piece with
  | nil => simp_all [pieces]
  | cons c rest ih =>
    unfold pieces at h
    split at h
    · rcases List.mem_cons.1 h with rfl | h
      · simp
      · exact ih h
    · split at h
      · simp_all
        exact fun heq => by simp_all
      · rename_i hne _ first others heq
        rcases List.mem_cons.1 h with rfl | h
        · have : separator ∉ first := ih (by simp [heq])
          simp only [List.mem_cons, not_or]
          exact ⟨fun e => hne e.symm, this⟩
        · exact ih (by simp [heq, h])

end Rollout.Text
