/-!
# Tables

The rows of a table, each under a number of its own, in ascending order. Numbers are never given
twice: the last one given is kept, whatever happens to its row.
-/

namespace Rollout

/-- A table with rows of one kind. Each row has a number, and the last one that was given is kept,
so that it is not given again. -/
structure Table (ρ : Type) where
  rows : List (Nat × ρ)
  lastId : Nat
deriving DecidableEq

namespace Table

variable {ρ : Type}

/-- A table without rows. -/
def empty : Table ρ := ⟨[], 0⟩

/-- The rows without their numbers. -/
def contents (table : Table ρ) : List ρ := table.rows.map (·.2)

/-- A row is there for which the test holds. -/
def any (table : Table ρ) (test : ρ → Bool) : Bool := table.contents.any test

/-- The rows for which the test holds. -/
def select (table : Table ρ) (test : ρ → Bool) : List ρ := table.contents.filter test

/-- Adds a row under a new number. -/
def append (row : ρ) (table : Table ρ) : Table ρ :=
  ⟨table.rows ++ [(table.lastId + 1, row)], table.lastId + 1⟩

/-- Takes away the rows for which the test holds. -/
def remove (test : ρ → Bool) (table : Table ρ) : Table ρ :=
  { table with rows := table.rows.filter fun entry => !test entry.2 }

/-- Changes the rows for which the test holds; they keep their numbers, and with them their
places. -/
def update (test : ρ → Bool) (change : ρ → ρ) (table : Table ρ) : Table ρ :=
  { table with
    rows := table.rows.map fun entry =>
      if test entry.2 then (entry.1, change entry.2) else entry }

/-- Puts a row in the place of the one for which the test holds, or adds it. A number is used up
either way, since it is given before the row is found to be there. -/
def put (test : ρ → Bool) (row : ρ) (table : Table ρ) : Table ρ :=
  if table.any test then
    { table.update test fun _ => row with lastId := table.lastId + 1 }
  else table.append row

/-! ### Interface lemmas -/

@[simp] theorem contents_empty : (empty : Table ρ).contents = [] := rfl

/-- A new row comes last. -/
@[simp] theorem contents_append (row : ρ) (table : Table ρ) :
    (table.append row).contents = table.contents ++ [row] := by
  simp [append, contents]

/-- The other rows stay, in their order. -/
@[simp] theorem contents_remove (test : ρ → Bool) (table : Table ρ) :
    (table.remove test).contents = table.contents.filter fun row => !test row := by
  simp [remove, contents, List.filter_map, Function.comp_def]

/-- A change is made row by row. -/
@[simp] theorem contents_update (test : ρ → Bool) (change : ρ → ρ) (table : Table ρ) :
    (table.update test change).contents =
      table.contents.map fun row => if test row then change row else row := by
  simp only [update, contents, List.map_map]
  refine List.map_congr_left fun entry _ => ?_
  simp only [Function.comp_apply]
  split <;> rfl

end Table

end Rollout
