import Rollout.Binary64.Shortest
import Rollout.Text.Quoted

/-!
# Values

What callers hand in where the interface fixes no type: names that may be no text, quantities that
may be no number, documents. Most operations look at one kind of value and refuse the others.

* `Value.same` is the equality of values: numbers are compared across their kinds, so one, true and
  1.0 are the same, and dictionaries are compared without their order.
* `Value.insert` writes an entry of a dictionary: a new key goes to the end, a present one keeps its
  place.
* `Value.quoted` and `Value.shown` are the two texts of a value; they differ on texts only.

Texts are sequences of Unicode scalar values throughout. A text with a surrogate that stands alone
is therefore no value; byte strings and numbers of other kinds are none either.
-/

namespace Rollout

/-- A value of any kind. What a caller can hand in and a document can hold is one of these; objects
of other kinds do not reach the operations, except for scale requests, whose validator is a
parameter. -/
inductive Value where
  | none
  | bool (b : Bool)
  | int (n : Int)
  | real (x : Binary64)
  | text (s : String)
  | list (items : List Value)
  | dict (entries : List (Value × Value))

namespace Value

/-! ### Numbers -/

/-- A value that counts as a number: truth values are zero and one. -/
inductive Number where
  | int (n : Int)
  | real (x : Binary64)

/-- The number that a value counts as. -/
def number? : Value → Option Number
  | .bool b => some (.int (if b then 1 else 0))
  | .int n => some (.int n)
  | .real x => some (.real x)
  | _ => Option.none

/-- The exact order between two numbers; none with "not a number". An integer is not rounded for the
comparison, so no two numbers are level that differ. -/
def Number.compare? : Number → Number → Option Ordering
  | .int a, .int b => some (compare a b)
  | .real x, .int n => x.compareInt? n
  | .int n, .real x => (x.compareInt? n).map Ordering.swap
  | .real x, .real y => x.compare? y

/-! ### Equality -/

mutual

/-- Equality of values. It is decidable but no equality of Lean: numbers of different kinds may be
the same, and "not a number" is not the same as itself. -/
def same : Value → Value → Bool
  | .none, other => match other with
    | .none => true
    | _ => false
  | .bool b, other => match other.number? with
    | some n => (Number.int (if b then 1 else 0)).compare? n == some .eq
    | Option.none => false
  | .int n, other => match other.number? with
    | some m => (Number.int n).compare? m == some .eq
    | Option.none => false
  | .real x, other => match other.number? with
    | some m => (Number.real x).compare? m == some .eq
    | Option.none => false
  | .text s, other => match other with
    | .text t => s == t
    | _ => false
  | .list items, other => match other with
    | .list others => sameItems items others
    | _ => false
  | .dict entries, other => match other with
    -- Dictionaries of the same length are the same if each entry of the one is found in the other.
    | .dict others => entries.length == others.length && sameEntries entries others
    | _ => false

/-- Equality of lists, item by item. -/
def sameItems : List Value → List Value → Bool
  | [], others => others.isEmpty
  | item :: items, others => match others with
    | [] => false
    | other :: rest => same item other && sameItems items rest

/-- Every entry is found among the others. -/
def sameEntries : List (Value × Value) → List (Value × Value) → Bool
  | [], _ => true
  | (key, value) :: rest, others =>
    others.any (fun other => same key other.1 && same value other.2) && sameEntries rest others

end

/-! ### Dictionaries -/

/-- Values that can be the key of a dictionary. -/
def isKey : Value → Bool
  | .list _ | .dict _ => false
  | _ => true

/-- The value under a key. -/
def find? {α : Type} (entries : List (Value × α)) (key : Value) : Option α :=
  (entries.find? fun entry => entry.1.same key).map (·.2)

/-- Writes an entry: a new key goes to the end, a present key keeps its place and its form. So a
table in which one was written under `true` and then under `1` still has the key `true`. -/
def insert {α : Type} (key : Value) (value : α) : List (Value × α) → List (Value × α)
  | [] => [(key, value)]
  | entry :: rest =>
    if entry.1.same key then (entry.1, value) :: rest else entry :: insert key value rest

/-- A dictionary from entries in order of arrival. -/
def collect {α : Type} (entries : List (Value × α)) : List (Value × α) :=
  entries.foldl (fun table entry => insert entry.1 entry.2 table) []

/-- A dictionary of texts as a value. -/
def ofFields (fields : List (String × String)) : Value :=
  .dict (fields.map fun field => (.text field.1, .text field.2))

/-! ### Truth -/

/-- Whether a value counts as true: the absent value, zeros and all that is empty do not. -/
def isTrue : Value → Bool
  | .none => false
  | .bool b => b
  | .int n => n != 0
  | .real x => !x.isZero
  | .text s => !s.isEmpty
  | .list items => !items.isEmpty
  | .dict entries => !entries.isEmpty

/-- The value, or another one if it is absent. -/
def orElse (value other : Value) : Value :=
  match value with
  | .none => other
  | value => value

/-! ### Texts of a value -/

/-- The word for a truth value. -/
def boolText (b : Bool) : String := if b then "True" else "False"

mutual

/-- The text of a value with its texts quoted. -/
def quoted : Value → String
  | .none => "None"
  | .bool b => boolText b
  | .int n => toString n
  | .real x => x.shown
  | .text s => Text.quoted s
  | .list items => "[" ++ ", ".intercalate (quotedItems items) ++ "]"
  | .dict entries => "\x7b" ++ ", ".intercalate (quotedEntries entries) ++ "\x7d"

/-- The texts of the items of a list. -/
def quotedItems : List Value → List String
  | [] => []
  | item :: rest => quoted item :: quotedItems rest

/-- The texts of the entries of a dictionary. -/
def quotedEntries : List (Value × Value) → List String
  | [] => []
  | (key, value) :: rest => (quoted key ++ ": " ++ quoted value) :: quotedEntries rest

end

/-- The text of a value: a text is itself, all else is as when quoted. -/
def shown : Value → String
  | .text s => s
  | value => value.quoted

mutual

/-- Every integer in the value can be written. An integer has a text only up to a number of digits,
and a value that holds a longer one has none. -/
def writable : Value → Bool
  | .int n => Numeral.Writable n
  | .list items => writableItems items
  | .dict entries => writableEntries entries
  | _ => true

/-- Every integer in the items can be written. -/
def writableItems : List Value → Bool
  | [] => true
  | item :: rest => writable item && writableItems rest

/-- Every integer in the entries can be written. -/
def writableEntries : List (Value × Value) → Bool
  | [] => true
  | (key, value) :: rest => writable key && writable value && writableEntries rest

end

/-! ### Interface lemmas -/

@[simp] theorem shown_text (s : String) : (Value.text s).shown = s := rfl

/-- A text can always be written. -/
@[simp] theorem writable_text (s : String) : (Value.text s).writable = true := by
  simp [writable]

/-- Texts are the same exactly if they are equal. -/
@[simp] theorem same_text (s t : String) : (Value.text s).same (.text t) = (s == t) := by
  simp [same]

@[simp] theorem insert_nil {α : Type} (key : Value) (value : α) :
    insert key value [] = [(key, value)] := rfl

@[simp] theorem find?_nil {α : Type} (key : Value) :
    find? ([] : List (Value × α)) key = Option.none := rfl

/-! ### Entries of a dictionary -/

variable {α : Type}

/-- An entry of a dictionary after one was written is an earlier one or holds what was written. -/
theorem mem_insert {key : Value} {value : α} {entries : List (Value × α)} {entry : Value × α}
    (h : entry ∈ insert key value entries) : entry ∈ entries ∨ entry.2 = value := by
  induction entries with
  | nil =>
    rw [insert_nil, List.mem_singleton] at h
    exact .inr (congrArg (·.2) h)
  | cons first rest ih =>
    rw [insert] at h
    split at h
    -- The first entry has the key: its value is the new one, and the rest is as it was.
    · rcases List.mem_cons.mp h with rfl | hrest
      · exact .inr rfl
      · exact .inl (List.mem_cons_of_mem _ hrest)
    · rcases List.mem_cons.mp h with rfl | hrest
      · exact .inl List.mem_cons_self
      · exact (ih hrest).imp_left (List.mem_cons_of_mem _)

theorem exists_mem_of_find? {key : Value} {value : α} {entries : List (Value × α)}
    (h : find? entries key = some value) : ∃ entry ∈ entries, entry.2 = value := by
  obtain ⟨entry, hentry, hvalue⟩ := Option.map_eq_some_iff.mp h
  exact ⟨entry, List.mem_of_find?_eq_some hentry, hvalue⟩

/-- What is written over something that was found is found in its place. -/
theorem find?_insert {key : Value} {value old : α} {entries : List (Value × α)}
    (h : find? entries key = some old) : find? (insert key value entries) key = some value := by
  induction entries with
  | nil => cases h
  | cons first rest ih =>
    rw [find?, List.find?_cons] at h
    rw [insert, find?]
    -- Whether the first key is the same is asked by looking up and by writing alike.
    cases hsame : first.1.same key with
    | true =>
      rw [if_pos rfl, List.find?_cons, hsame]
      rfl
    | false =>
      rw [hsame] at h
      rw [if_neg Bool.false_ne_true, List.find?_cons, hsame]
      exact ih h

/-- Writing what is there already changes nothing. -/
theorem insert_of_find? {key : Value} {value : α} {entries : List (Value × α)}
    (h : find? entries key = some value) : insert key value entries = entries := by
  induction entries with
  | nil => cases h
  | cons first rest ih =>
    rw [find?, List.find?_cons] at h
    rw [insert]
    cases hsame : first.1.same key with
    | true =>
      rw [hsame] at h
      -- What is written over is what was found.
      rw [if_pos rfl, ← Option.some.inj h]
    | false =>
      rw [hsame] at h
      rw [if_neg Bool.false_ne_true, ih h]

end Value

end Rollout
