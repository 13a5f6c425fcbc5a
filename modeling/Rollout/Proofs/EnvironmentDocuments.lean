import Mathlib.Data.List.Nodup
import Rollout.Document.Reader
import Rollout.Job.Basic
import Rollout.Proofs.NameFields

/-!
# Environments as documents

A tracked job keeps its environment as one text, and everything that later asks the store for its
jobs has to read that text. Reading must therefore never fail on what was written, or an application
could neither be rolled out nor scaled any more. This file proves the round trip: an environment
that was written reads back as the same environment, its names in order (`Document.read_ofFields`).

The proof follows the grammar from the inside out:

* `hexValue?_hexDigit` and `readUnit?_hexDigits`: four digits are a unit;
* `readText?_escape`: an escape is one character, for each of the kinds of escape;
* `readText?_flatMap`: a text ends at its quotation mark, since no escape holds a bare one;
* `readEntries_chars`: entries end at their brace.

Names and values are texts, so nothing lies deeper than one dictionary and the limit on depth never
counts.

The second half is about environments as such: names are distinct (`Environment.nodup_of_ofVars`),
and an environment with distinct names is its own plain mapping (`Environment.ofValue?_ofFields`),
so that a job and its definition carry the same variables.
-/

namespace Rollout

/-! ### Order -/

/-- Sorting goes along with a change of form that the order does not see. -/
theorem inOrder_map {α β : Type} {before : α → α → Bool} {before' : β → β → Bool} (f : α → β)
    (h : ∀ a b, before' (f a) (f b) = before a b) (items : List α) :
    inOrder before' (items.map f) = (inOrder before items).map f := by
  -- one item at a time
  have hinsert : ∀ (item : α) (others : List α),
      insertInOrder before' (f item) (others.map f) = (insertInOrder before item others).map f := by
    intro item others
    induction others with
    | nil => rfl
    | cons other rest ih =>
      rw [List.map_cons, insertInOrder, insertInOrder, h]
      split
      · rw [ih, List.map_cons]
      · rfl
  -- On the items, each of which is inserted where it belongs.
  induction items with
  | nil => rfl
  | cons item rest ih => rw [List.map_cons, inOrder_cons, ih, hinsert, inOrder_cons]

namespace Document

open Rollout.Text

/-! ### Units -/

theorem hexValue?_hexDigit {value : Nat} (h : value < 16) :
    hexValue? (hexDigit value) = some value := by
  have hall : ∀ v : Fin 16, hexValue? (hexDigit v) = some v.val := by decide
  exact hall ⟨value, h⟩

theorem hexDigits_four (n : Nat) :
    hexDigits 4 n = [hexDigit (n / 4096 % 16), hexDigit (n / 256 % 16), hexDigit (n / 16 % 16),
      hexDigit (n % 16)] := by
  simp only [hexDigits, List.nil_append, List.cons_append, Nat.div_div_eq_div_mul]

/-- Four hexadecimal digits are read as the unit that they were written for. -/
theorem readUnit?_hexDigits {n : Nat} (h : n < 0x10000) (rest : List Char) :
    readUnit? (hexDigits 4 n ++ rest) = some (n, rest) := by
  have hlt (m : Nat) : m % 16 < 16 := Nat.mod_lt m (by decide)
  have hsum : 4096 * (n / 4096 % 16) + 256 * (n / 256 % 16) + 16 * (n / 16 % 16) + n % 16 = n := by
    omega
  rw [hexDigits_four]
  simp only [List.cons_append, List.nil_append, readUnit?, hexValue?_hexDigit (hlt _),
    Option.bind_eq_bind, Option.bind_some, hsum, Option.pure_def]

/-! ### Characters -/

/-- No character is half of a pair: the numbers of the halves are kept free for them. -/
theorem toNat_not_surrogate (c : Char) : c.toNat < 0xD800 ∨ 0xDFFF < c.toNat := by
  have hvalid := c.valid
  simp only [UInt32.isValidChar, Nat.isValidChar] at hvalid
  rcases hvalid with h | h
  · exact .inl h
  · exact .inr h.1

theorem toNat_lt (c : Char) : c.toNat < 0x110000 := by
  have hvalid := c.valid
  simp only [UInt32.isValidChar, Nat.isValidChar] at hvalid
  rcases hvalid with h | h
  · exact Nat.lt_trans h (by decide)
  · exact h.2

/-- A unit that is no half of a pair is its own character. -/
theorem readUnits?_single {c : Char} (h : c.toNat < 0x10000) (rest : List Char) :
    readUnits? (hexDigits 4 c.toNat ++ rest) = some (c, rest) := by
  -- It is no half, so no second unit is looked for.
  have hrange := toNat_not_surrogate c
  have hhigh : ¬(0xD800 ≤ c.toNat ∧ c.toNat < 0xDC00) := by omega
  have hhalf : ¬(0xD800 ≤ c.toNat ∧ c.toNat < 0xE000) := by omega
  simp only [readUnits?, readUnit?_hexDigits h, Option.bind_eq_bind, Option.bind_some,
    if_neg hhigh, unitChar, if_neg hhalf, Option.pure_def, Char.ofNat_toNat]

/-- Two halves are the character that they were made of. -/
theorem readUnits?_pair {c : Char} (h : 0x10000 ≤ c.toNat) (rest : List Char) :
    readUnits? (hexDigits 4 (0xD800 + (c.toNat - 0x10000) / 0x400) ++
      (unitEscape (0xDC00 + (c.toNat - 0x10000) % 0x400) ++ rest)) = some (c, rest) := by
  have hlt := toNat_lt c
  obtain ⟨high, hhigh⟩ : ∃ high, high = 0xD800 + (c.toNat - 0x10000) / 0x400 := ⟨_, rfl⟩
  obtain ⟨low, hlow⟩ : ∃ low, low = 0xDC00 + (c.toNat - 0x10000) % 0x400 := ⟨_, rfl⟩
  -- the halves lie in the ranges kept for them, and put together they are the character
  have hfirst : 0xD800 ≤ high ∧ high < 0xDC00 := by omega
  have hsecond : 0xDC00 ≤ low ∧ low < 0xE000 := by omega
  have hsum : 0x10000 + 0x400 * (high - 0xD800) + (low - 0xDC00) = c.toNat := by omega
  have hread : lowUnit? (unitEscape low ++ rest) = some (low, rest) := by
    simp only [unitEscape, List.cons_append, lowUnit?]
    rw [readUnit?_hexDigits (by omega), Option.filter_some, if_pos]
    simp only [Bool.and_eq_true, decide_eq_true_eq]
    exact hsecond
  rw [← hhigh, ← hlow, readUnits?, readUnit?_hexDigits (by omega)]
  simp only [Option.bind_eq_bind, Option.bind_some, if_pos hfirst, hread, hsum, Option.pure_def,
    Char.ofNat_toNat]

/-- A character that needs no escape stands for itself. -/
theorem readText?_plain (fuel : Nat) {c : Char} (hquote : c ≠ '"') (hslash : c ≠ '\\')
    (hspace : 0x20 ≤ c.toNat) (rest : List Char) :
    readText? (fuel + 1) (c :: rest) =
      (readText? fuel rest).map fun read => (c :: read.1, read.2) := by
  rw [readText?.eq_6]
  · rw [if_neg]
    · cases readText? fuel rest <;> rfl
    · rintro (h | h)
      · omega
      · exact hslash h
  · exact hquote
  · intro _ h
    exact absurd h hslash
  · intro _ _ h
    exact absurd h hslash

/-- A letter behind a backslash stands for its character. -/
theorem readText?_letter (fuel : Nat) {letter c : Char} (h : letter? letter = some c)
    (rest : List Char) :
    readText? (fuel + 1) ('\\' :: letter :: rest) =
      (readText? fuel rest).map fun read => (c :: read.1, read.2) := by
  rw [readText?.eq_5, h]
  · cases readText? fuel rest <;> rfl
  · rintro rfl
    cases h

theorem readText?_units (fuel : Nat) {units rest : List Char} {c : Char}
    (h : readUnits? units = some (c, rest)) :
    readText? (fuel + 1) ('\\' :: 'u' :: units) =
      (readText? fuel rest).map fun read => (c :: read.1, read.2) := by
  rw [readText?.eq_4, h]
  cases hrest : readText? fuel rest <;> simp [hrest]

/-- An escape is read as the character that it was written for: one of a few letters, the character
itself, one unit or a pair of them. -/
theorem readText?_escape (fuel : Nat) (c : Char) (rest : List Char) :
    readText? (fuel + 1) (escape c ++ rest) =
      (readText? fuel rest).map fun read => (c :: read.1, read.2) := by
  unfold escape
  -- six characters have letters of their own
  iterate 6
    split
    · next h =>
      subst h
      exact readText?_letter fuel rfl rest
  split
  · next h =>
    subst h
    exact readText?_letter fuel rfl rest
  next hquote hslash _ _ _ _ _ =>
  split
  · next hplain => exact readText?_plain fuel hquote hslash hplain.1 rest
  split
  · next hsmall => exact readText?_units fuel (readUnits?_single hsmall rest)
  · next hlarge =>
    rw [List.append_assoc]
    exact readText?_units fuel (readUnits?_pair (Nat.le_of_not_lt hlarge) rest)

/-- An escape is never empty, so a text is no longer than what it is written as. -/
theorem length_le_flatMap_escape (s : List Char) : s.length ≤ (s.flatMap escape).length := by
  -- On the characters, each of which has an escape of one character at least.
  induction s with
  | nil => exact Nat.le_refl 0
  | cons c rest ih =>
    have hpos : 0 < (escape c).length := by
      unfold escape unitEscape
      repeat' split
      all_goals simp
    rw [List.flatMap_cons, List.length_append, List.length_cons]
    omega

/-- **A text is read up to its quotation mark.** No escape holds a bare one. -/
theorem readText?_flatMap (s : List Char) (rest : List Char) {fuel : Nat} (h : s.length < fuel) :
    readText? fuel (s.flatMap escape ++ '"' :: rest) = some (s, rest) := by
  -- On the characters; each takes one step of the bound, and the quotation mark takes the last.
  induction s generalizing fuel with
  | nil =>
    obtain ⟨fuel, rfl⟩ : ∃ n, fuel = n + 1 := ⟨fuel - 1, by simp only [List.length_nil] at h; omega⟩
    exact readText?.eq_3 fuel rest
  | cons c tail ih =>
    rw [List.length_cons] at h
    obtain ⟨fuel, rfl⟩ : ∃ n, fuel = n + 1 := ⟨fuel - 1, by omega⟩
    rw [List.flatMap_cons, List.append_assoc, readText?_escape, ih (by omega), Option.map_some]

/-! ### Entries -/

/-- The characters of a text in quotation marks. -/
def quoteChars (s : String) : List Char := '"' :: s.toList.flatMap escape ++ ['"']

/-- The characters of an entry. -/
def fieldChars (field : String × String) : List Char :=
  quoteChars field.1 ++ ':' :: ' ' :: quoteChars field.2

/-- The characters of entries up to their brace. -/
def fieldsChars : List (String × String) → List Char
  | [] => ['\x7d']
  | [field] => fieldChars field ++ ['\x7d']
  | field :: rest => fieldChars field ++ ',' :: ' ' :: fieldsChars rest

theorem exists_fieldsChars_cons (field : String × String) (rest : List (String × String)) :
    ∃ tail, fieldsChars (field :: rest) = '"' :: tail := by
  cases rest with
  | nil => exact ⟨_, rfl⟩
  | cons next others => exact ⟨_, rfl⟩

/-- There are more characters than entries. -/
theorem length_lt_fieldsChars (fields : List (String × String)) :
    fields.length < (fieldsChars fields).length := by
  -- On the entries; the brace is the one character more.
  induction fields with
  | nil => decide
  | cons field rest ih =>
    cases rest with
    | nil =>
      rw [fieldsChars, List.length_append, List.length_singleton, List.length_singleton, fieldChars,
        List.length_append, List.length_cons]
      omega
    | cons next others =>
      rw [fieldsChars, List.length_append]
      · rw [List.length_cons (a := field)]
        simp only [List.length_cons (a := ',')]
        simp only [List.length_cons (a := ' ')]
        omega
      · simp

theorem skipSpace_of_not {c : Char} (h : isSpace c = false) (rest : List Char) :
    skipSpace (c :: rest) = c :: rest := by
  rw [skipSpace, List.dropWhile_cons_of_neg]
  rw [h]
  decide

theorem skipSpace_blank {c : Char} (h : isSpace c = false) (rest : List Char) :
    skipSpace (' ' :: c :: rest) = c :: rest := by
  rw [skipSpace, List.dropWhile_cons_of_pos (by decide)]
  exact skipSpace_of_not h rest

/-- A quoted text is read as a text. -/
theorem readValue_quoteChars (room fuel : Nat) (s : String) (rest : List Char) :
    readValue room (fuel + 1) (quoteChars s ++ rest) = .ok (.text s, rest) := by
  have hlength : s.toList.length < (s.toList.flatMap escape ++ '"' :: rest).length + 1 := by
    have hle := length_le_flatMap_escape s.toList
    rw [List.length_append]
    omega
  have hform : quoteChars s ++ rest = '"' :: (s.toList.flatMap escape ++ '"' :: rest) := by
    simp only [quoteChars, List.cons_append, List.append_assoc, List.nil_append]
  rw [hform, readValue]
  simp only [readText?_flatMap _ _ hlength, String.ofList_toList]

/-- An entry is read, and what follows it is looked at behind its blanks. -/
theorem readEntries_fieldChars (room fuel : Nat) (field : String × String) (rest : List Char) :
    readEntries room (fuel + 2) (fieldChars field ++ rest) =
      match skipSpace rest with
      | '\x7d' :: rest => .ok ([(Value.text field.1, Value.text field.2)], rest)
      | ',' :: rest => do
        let (entries, rest) ← readEntries room (fuel + 1) (skipSpace rest)
        return ((Value.text field.1, Value.text field.2) :: entries, rest)
      | _ => .error .malformedDocument := by
  obtain ⟨key, value⟩ := field
  have hform : fieldChars (key, value) ++ rest =
      '"' :: (key.toList.flatMap escape ++ '"' :: (':' :: ' ' :: (quoteChars value ++ rest))) := by
    simp only [fieldChars, quoteChars, List.cons_append, List.append_assoc, List.nil_append]
  -- the reader has room for every character of the key
  have hlength : key.toList.length < (key.toList.flatMap escape ++
      '"' :: (':' :: ' ' :: (quoteChars value ++ rest))).length + 1 := by
    have hle := length_le_flatMap_escape key.toList
    rw [List.length_append]
    omega
  have hcolon : skipSpace (':' :: ' ' :: (quoteChars value ++ rest)) =
      ':' :: ' ' :: (quoteChars value ++ rest) := skipSpace_of_not (by decide) _
  have hvalue : skipSpace (' ' :: (quoteChars value ++ rest)) = quoteChars value ++ rest := by
    rw [quoteChars, List.cons_append, List.cons_append]
    exact skipSpace_blank (by decide) _
  rw [hform, readEntries]
  simp only [readText?_flatMap _ _ hlength, hcolon, hvalue, readValue_quoteChars,
    String.ofList_toList]
  rfl

/-- **Entries are read up to their brace.** Each of them takes one step of the bound. -/
theorem readEntries_fieldsChars (room : Nat) (fields : List (String × String)) (hne : fields ≠ [])
    (rest : List Char) {fuel : Nat} (h : fields.length < fuel) :
    readEntries room fuel (fieldsChars fields ++ rest) =
      .ok (fields.map fun field => (.text field.1, .text field.2), rest) := by
  -- On the entries, each read by the lemma before, which also says how it goes on.
  induction fields generalizing fuel with
  | nil => exact absurd rfl hne
  | cons field others ih =>
    rw [List.length_cons] at h
    obtain ⟨fuel, rfl⟩ : ∃ n, fuel = n + 2 := ⟨fuel - 2, by omega⟩
    -- the last entry is followed by the brace, every other one by a comma and a blank
    cases others with
    | nil =>
      rw [fieldsChars, List.append_assoc, readEntries_fieldChars]
      rfl
    | cons next others =>
      obtain ⟨tail, hform⟩ := exists_fieldsChars_cons next others
      have hskip : skipSpace (' ' :: (fieldsChars (next :: others) ++ rest)) =
          fieldsChars (next :: others) ++ rest := by
        rw [hform, List.cons_append]
        exact skipSpace_blank (by decide) _
      have hcomma : skipSpace (',' :: ' ' :: (fieldsChars (next :: others) ++ rest)) =
          ',' :: ' ' :: (fieldsChars (next :: others) ++ rest) := skipSpace_of_not (by decide) _
      rw [fieldsChars, List.append_assoc, readEntries_fieldChars]
      · simp only [List.cons_append, hcomma, hskip]
        rw [ih (by simp) (by omega)]
        rfl
      · simp

end Document

/-! ### Dictionaries of texts -/

namespace Value

/-- A new key goes to the end. -/
theorem insert_of_not_same {α : Type} {key : Value} (value : α) {entries : List (Value × α)}
    (h : ∀ entry ∈ entries, entry.1.same key = false) :
    insert key value entries = entries ++ [(key, value)] := by
  induction entries with
  | nil => rfl
  | cons entry rest ih =>
    have hfirst : entry.1.same key = false := h entry List.mem_cons_self
    rw [insert, hfirst, if_neg Bool.false_ne_true, ih fun other hmem => h other (.tail _ hmem)]
    rfl

/-- A dictionary that arrives with distinct texts for keys is as it arrived: no later entry takes
the place of an earlier one. -/
theorem collect_texts {fields : List (String × String)} (h : (fields.map (·.1)).Nodup) :
    collect (fields.map fun field => (Value.text field.1, Value.text field.2)) =
      fields.map fun field => (.text field.1, .text field.2) := by
  -- the induction is on what is still to come, with the dictionary so far in front of it
  have hall : ∀ before : List (String × String), ((before ++ fields).map (·.1)).Nodup →
      (fields.map fun field => (Value.text field.1, Value.text field.2)).foldl
        (fun table entry => insert entry.1 entry.2 table)
        (before.map fun field => (Value.text field.1, Value.text field.2)) =
      (before ++ fields).map fun field => (Value.text field.1, Value.text field.2) := by
    clear h
    induction fields with
    | nil =>
      intro before _
      rw [List.append_nil]
      rfl
    | cons field rest ih =>
      intro before hnodup
      have hnew : ∀ entry ∈ before.map fun field => (Value.text field.1, Value.text field.2),
          entry.1.same (.text field.1) = false := by
        intro entry hmem
        obtain ⟨earlier, hearlier, rfl⟩ := List.mem_map.mp hmem
        rw [same_text, beq_eq_false_iff_ne]
        intro heq
        rw [List.map_append, List.nodup_append] at hnodup
        exact hnodup.2.2 _ (List.mem_map_of_mem hearlier) _
          (List.mem_map_of_mem List.mem_cons_self) heq
      rw [List.map_cons, List.foldl_cons, insert_of_not_same _ hnew]
      have hstep := ih (before ++ [field]) (by rwa [List.append_assoc])
      rwa [List.map_append, List.append_assoc] at hstep
  exact hall [] h

/-- A dictionary of texts is the same in any order. -/
theorem same_ofFields_of_perm {fields others : List (String × String)} (h : fields.Perm others) :
    (ofFields fields).same (ofFields others) = true := by
  -- one inclusion is enough, as there are equally many fields
  have hentries : ∀ some : List (String × String), some ⊆ others →
      sameEntries (some.map fun field => (.text field.1, .text field.2))
        (others.map fun field => (.text field.1, .text field.2)) = true := by
    intro some hsubset
    induction some with
    | nil => simp [sameEntries]
    | cons field rest ih =>
      rw [List.cons_subset] at hsubset
      simp only [List.map_cons, sameEntries, Bool.and_eq_true, List.any_eq_true]
      refine ⟨⟨_, List.mem_map_of_mem hsubset.1, ?_⟩, ih hsubset.2⟩
      simp
  simp only [ofFields, same, Bool.and_eq_true, beq_iff_eq, List.length_map]
  exact ⟨h.length_eq, hentries fields h.subset⟩

end Value

/-! ### Environments -/

namespace Environment

/-- The variables in the order of their names. -/
def sorted (environment : Environment) : Environment :=
  inOrder (fun a b => a.1 < b.1) environment

theorem perm_sorted (environment : Environment) : environment.sorted.Perm environment :=
  perm_inOrder _ environment

theorem nodup_names_sorted {environment : Environment} (h : environment.names.Nodup) :
    environment.sorted.names.Nodup :=
  ((perm_sorted environment).map _).nodup_iff.mpr h

/-- **The names of an environment are distinct**, whatever the configuration variables are. -/
theorem nodup_of_ofVars {vars : List (Value × Value)} {environment : Environment}
    (h : ofVars vars = .ok environment) : environment.names.Nodup := by
  obtain ⟨fields, -, hfold⟩ := bind_eq_ok.mp h
  obtain rfl := Except.ok.inj hfold
  clear h hfold
  -- variables are set one by one, so the statement is about any environment to begin with
  have hall : ∀ start : Environment, start.names.Nodup →
      (fields.foldl (fun environment entry => Named.set entry.1 entry.2 environment)
        start).names.Nodup := by
    -- On the variables: setting one adds a name that is new, or none.
    induction fields with
    | nil => exact fun _ hstart => hstart
    | cons field rest ih => exact fun start hstart => ih _ (Named.nodup_names_set _ _ hstart)
  exact hall [] List.nodup_nil

/-- Texts are texts already. -/
theorem texts_ofFields (fields : List (String × String)) :
    texts (fields.map fun field => (.text field.1, .text field.2)) = .ok fields := by
  induction fields with
  | nil => rfl
  | cons field rest ih =>
    rw [List.map_cons, texts, Value.shown?_text, Value.shown?_text, ih]
    rfl

/-- **An environment is its own plain mapping.** -/
theorem ofValue?_ofFields {environment : Environment} (h : environment.names.Nodup) :
    ofValue? (.ofFields environment) = .ok environment := by
  -- for the induction: fields with new names go behind those that were set before
  have hall : ∀ before : Environment, (before ++ environment).names.Nodup →
      environment.foldl (fun environment entry => Named.set entry.1 entry.2 environment) before =
        before ++ environment := by
    clear h
    induction environment with
    | nil =>
      intro before _
      rw [List.append_nil]
      rfl
    | cons field rest ih =>
      intro before hnodup
      have hnew : field.1 ∉ before.names := by
        intro hmem
        rw [Named.names, List.map_append, List.nodup_append] at hnodup
        exact hnodup.2.2 _ hmem _ (List.mem_map_of_mem List.mem_cons_self) rfl
      rw [List.foldl_cons, Named.set_of_not_mem _ hnew, ih, List.append_assoc]
      · rfl
      · rwa [List.append_assoc]
  show (do return (← texts _).foldl _ []) = _
  rw [texts_ofFields]
  exact congrArg Except.ok (hall [] h)

end Environment

/-! ### The round trip -/

namespace Document

theorem toList_quote (s : String) : (quote s).toList = quoteChars s := by
  rw [quote, String.toList_ofList]
  rfl

/-- The entries of a dictionary of texts are written one by one. -/
theorem writeEntries_texts (fields : List (String × String)) :
    writeEntries (fields.map fun field => (.text field.1, .text field.2)) =
      fields.map fun field => (.text field.1, .ok (quote field.2)) := by
  induction fields with
  | nil => simp [writeEntries]
  | cons field rest ih => simp [writeEntries, ih]

/-- Entries that are texts are written in the order of their names. -/
theorem sortedEntries_texts (environment : Environment) :
    Value.sortedEntries (environment.map fun field =>
      (Value.text field.1, (.ok (quote field.2) : Except Failure String))) =
      environment.sorted.map fun field => (.text field.1, .ok (quote field.2)) := by
  rw [Value.sortedEntries_of_allOrdered]
  · exact inOrder_map _ (fun a b => rfl) environment
  · simp [Value.allOrdered]

/-- The text of an entry. -/
def fieldText (field : String × String) : String := quote field.1 ++ ": " ++ quote field.2

theorem toList_fieldText (field : String × String) :
    (fieldText field).toList = fieldChars field := by
  simp [fieldText, String.toList_append, toList_quote, fieldChars]

/-- Entries that are texts can all be written. -/
theorem mapM_fieldText (fields : List (String × String)) :
    (fields.map fun field =>
      (Value.text field.1, (.ok (quote field.2) : Except Failure String))).mapM (fun field => do
        let key ← writeScalar field.1
        return quote key ++ ": " ++ (← field.2)) =
      .ok (fields.map fieldText) := by
  induction fields with
  | nil => rfl
  | cons field rest ih =>
    rw [List.map_cons, List.mapM_cons, ih]
    rfl

/-- What is written for a dictionary of texts. -/
theorem write_ofFields (environment : Environment) :
    write (.ofFields environment) =
      .ok ("\x7b" ++ ", ".intercalate (environment.sorted.map fieldText) ++ "\x7d") := by
  -- texts can be compared with one another, so nothing stands in the way of sorting them
  have hcomparable : Value.allComparable (environment.map fun field =>
      (Value.text field.1, (.ok (quote field.2) : Except Failure String))) = true := by
    refine Value.allComparable_of_texts fun entry hmem => ?_
    obtain ⟨field, -, rfl⟩ := List.mem_map.mp hmem
    exact ⟨field.1, rfl⟩
  rw [Value.ofFields, write, writeEntries_texts, writeFields, hcomparable, sortedEntries_texts]
  simp only [Bool.not_true, Bool.false_eq_true, if_false, mapM_fieldText]
  rfl

/-- Entries with commas between them are entries up to their brace. -/
theorem intercalate_fieldChars (fields : List (String × String)) :
    List.intercalate [',', ' '] (fields.map fieldChars) ++ ['\x7d'] = fieldsChars fields := by
  -- On the entries; the last one has the brace behind it, and every other one a comma.
  induction fields with
  | nil => rfl
  | cons field rest ih =>
    cases rest with
    | nil => simp [fieldsChars, List.intercalate]
    | cons next others =>
      rw [fieldsChars, ← ih]
      · simp [List.intercalate]
      · simp

/-- The characters of what is written for a dictionary of texts. -/
theorem toList_intercalate_fieldText (fields : List (String × String)) :
    ("\x7b" ++ ", ".intercalate (fields.map fieldText) ++ "\x7d").toList =
      '\x7b' :: fieldsChars fields := by
  have hfield : String.toList ∘ fieldText = fieldChars := funext toList_fieldText
  rw [String.toList_append, String.toList_append, String.toList_intercalate, List.map_map, hfield,
    ← intercalate_fieldChars]
  rfl

/-- A dictionary of texts is read up to its brace. -/
theorem readValue_fieldsChars {room fuel : Nat} {fields : List (String × String)}
    (hroom : 0 < room) (hnodup : (fields.map (·.1)).Nodup) (hfuel : fields.length + 1 < fuel) :
    readValue room fuel ('\x7b' :: fieldsChars fields) = .ok (.ofFields fields, []) := by
  obtain ⟨fuel, rfl⟩ : ∃ n, fuel = n + 1 := ⟨fuel - 1, by omega⟩
  rw [readValue, if_neg (by omega)]
  cases fields with
  | nil => rfl
  | cons field rest =>
    obtain ⟨tail, hform⟩ := exists_fieldsChars_cons field rest
    -- the first field begins with a quote, so there is no space to skip and no brace to end with
    have hskip : skipSpace (fieldsChars (field :: rest)) = fieldsChars (field :: rest) := by
      rw [hform]
      exact skipSpace_of_not (by decide) _
    have hlength : (field :: rest).length < fuel := by omega
    have hread := readEntries_fieldsChars (room - 1) (field :: rest) (List.cons_ne_nil _ _) []
      hlength
    rw [List.append_nil] at hread
    rw [hskip]
    split
    · next heq =>
      rw [hform] at heq
      cases heq
    · rw [hread]
      show Except.ok (Value.dict (Value.collect _), []) = _
      rw [Value.collect_texts hnodup, Value.ofFields]

/-- **The round trip**: an environment that was written is read back, with its names in order.
Reading never fails on what was written, so the jobs of an application can always be listed. -/
theorem read_ofFields {environment : Environment} (h : environment.names.Nodup) :
    ∃ document, write (.ofFields environment) = .ok document ∧
      read document = .ok (.ofFields environment.sorted) := by
  refine ⟨_, write_ofFields environment, ?_⟩
  have hchars := toList_intercalate_fieldText environment.sorted
  generalize "\x7b" ++ ", ".intercalate (environment.sorted.map fieldText) ++ "\x7d" = document
    at hchars
  -- The bound for reading is twice the length of the document, which is more than there are
  -- entries.
  have hvalue : readValue depthLimit (2 * document.toList.length + 4) (skipSpace document.toList) =
      .ok (.ofFields environment.sorted, []) := by
    have hfields := length_lt_fieldsChars environment.sorted
    rw [hchars, skipSpace_of_not (by decide), List.length_cons]
    exact readValue_fieldsChars (by decide) (Environment.nodup_names_sorted h) (by omega)
  rw [read, hvalue]
  rfl

end Document

end Rollout
