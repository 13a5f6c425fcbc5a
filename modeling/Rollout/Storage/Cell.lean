import Rollout.Conversion
import Rollout.Storage.Number

/-!
# Cells

What a database holds in one place: nothing, an integer of 64 bits, a floating-point number, or a
text. A value is first bound to a parameter (`Cell.bind`), and then takes the form of the column
that it goes to:

* a column of texts turns numbers into their texts (`Cell.asText`);
* a column of integers turns what reads as an integer into one and keeps all else
  (`Cell.asInteger`).
-/

namespace Rollout

/-- What a database holds in one place. Each cell has a kind of its own, and a column only makes a
kind more likely. -/
inductive Cell where
  | null
  | int (n : Int)
  | real (x : Binary64)
  | text (s : String)
deriving DecidableEq, Repr

namespace Cell

open CellNumber (bound fits)

/-- The cell of the parameter at a position. A truth value is an integer, and "not a number" is
nothing; an integer must fit 64 bits, and lists and dictionaries are taken by no parameter. -/
def bind (position : Nat) : Value → Except Failure Cell
  | .none => .ok .null
  | .bool b => .ok (.int (if b then 1 else 0))
  | .int n => if fits n then .ok (.int n) else .error .integerTooWide
  | .real .nan => .ok .null
  | .real x => .ok (.real x)
  | .text s => .ok (.text s)
  | .list _ => .error (.storage (.unsupported position "list"))
  | .dict _ => .error (.storage (.unsupported position "dict"))

/-- The cell as a value. -/
def toValue : Cell → Value
  | null => .none
  | int n => .int n
  | real x => .real x
  | text s => .text s

/-! ### Columns -/

/-- The text that a column of texts keeps, if there is any. -/
def asText : Cell → Option String
  | null => none
  | int n => some (toString n)
  -- This text is the one of the database and not the one that a number is shown with.
  | real x => some (CellNumber.text x)
  | text s => some s

/-- A floating-point number in a column of integers: the integer that it is, well within the
bounds. -/
def ofReal (x : Binary64) : Cell :=
  match x.integer? with
  | some n => if -bound < n ∧ n < bound - 1 then int n else real x
  | none => real x

/-- A text in a column of integers: the number that it reads as. -/
def ofNumeral (s : String) : Cell :=
  match Numeral.readPlain? s with
  | none => text s
  | some numeral =>
    -- A numeral without point and exponent is tried as an integer first, so it is exact up to 64
    -- bits.
    match CellNumber.integer? numeral with
    | some n => int n
    | none => ofReal (CellNumber.ofPlain numeral)

/-- What a column of integers keeps: integers, and all else as it is where it does not read as one.
A text that is no numeral stays a text. -/
def asInteger : Cell → Cell
  | null => null
  | int n => int n
  | real x => ofReal x
  | text s => ofNumeral s

/-- A text that the column must have. -/
def requireText (table column : String) (cell : Cell) : Except Failure String :=
  match cell.asText with
  | some s => .ok s
  | none => .error (.storage (.missingValue table column))

/-- A number, or what else a column of integers keeps, that the column must have. -/
def requireInteger (table column : String) (cell : Cell) : Except Failure Cell :=
  match cell.asInteger with
  | null => .error (.storage (.missingValue table column))
  | kept => .ok kept

/-! ### Interface lemmas -/

@[simp] theorem bind_text (position : Nat) (s : String) : bind position (.text s) = .ok (text s) :=
  rfl

/-- An integer of 64 bits is bound as itself. -/
theorem bind_int {n : Int} (position : Nat) (h : fits n = true) :
    bind position (.int n) = .ok (int n) := by
  simp [bind, h]

@[simp] theorem asText_text (s : String) : (text s).asText = some s := rfl

@[simp] theorem asInteger_int (n : Int) : (int n).asInteger = int n := rfl

@[simp] theorem requireText_text (table column s : String) :
    requireText table column (text s) = .ok s := rfl

@[simp] theorem requireInteger_int (table column : String) (n : Int) :
    requireInteger table column (int n) = .ok (int n) := rfl

end Cell

end Rollout
