import Rollout.Failure
import Rollout.Order

/-!
# Writing documents

The environment of a tracked job is kept as one text: a document in object notation, in ASCII only,
with the keys of every dictionary in order, so that equal environments have equal texts.
-/

namespace Rollout.Document

open Rollout.Text

/-! ### Texts -/

/-- A 16-bit unit as an escape. -/
def unitEscape (unit : Nat) : List Char := '\\' :: 'u' :: hexDigits 4 unit

/-- A character inside quotation marks. Characters outside the printable ASCII range are escaped by
their 16-bit units. -/
def escape (c : Char) : List Char :=
  if c = '"' then ['\\', '"']
  else if c = '\\' then ['\\', '\\']
  else if c = '\n' then ['\\', 'n']
  else if c = '\r' then ['\\', 'r']
  else if c = '\t' then ['\\', 't']
  else if c = '\x08' then ['\\', 'b']
  else if c = '\x0c' then ['\\', 'f']
  else if ' ' ≤ c ∧ c ≤ '~' then [c]
  -- Beyond 16 bits a character is written as the two halves of a pair.
  else if c.toNat < 0x10000 then unitEscape c.toNat
  else
    unitEscape (0xD800 + (c.toNat - 0x10000) / 0x400) ++
      unitEscape (0xDC00 + (c.toNat - 0x10000) % 0x400)

/-- A text in quotation marks. -/
def quote (s : String) : String :=
  String.ofList ('"' :: s.toList.flatMap escape ++ ['"'])

/-! ### Values -/

/-- An integer, unless it has too many digits. -/
def writeInteger (n : Int) : Except Failure String :=
  if Numeral.Writable n then .ok (toString n) else .error .unwritable

/-- A scalar value. -/
def writeScalar : Value → Except Failure String
  | .none => .ok "null"
  | .bool b => .ok (if b then "true" else "false")
  | .int n => writeInteger n
  | .real x => .ok x.documentText
  | .text s => .ok s
  | .list _ | .dict _ => .error .unsuitable

/-- The entries of a dictionary, in order, between braces. Keys that cannot be compared with one
another have no order, and then there is no document. -/
def writeFields (fields : List (Value × Except Failure String)) : Except Failure String := do
  -- This comes before what is wrong with single keys or values.
  if !Value.allComparable fields then throw .unsuitable
  let texts ← (Value.sortedEntries fields).mapM fun field => do
    let key ← writeScalar field.1
    return quote key ++ ": " ++ (← field.2)
  return "\x7b" ++ ", ".intercalate texts ++ "\x7d"

mutual

/-- The document of a value. -/
def write : Value → Except Failure String
  | .text s => .ok (quote s)
  | .list items => do return "[" ++ ", ".intercalate (← writeItems items) ++ "]"
  | .dict entries => writeFields (writeEntries entries)
  | scalar => writeScalar scalar

/-- The documents of the items of a list. -/
def writeItems : List Value → Except Failure (List String)
  | [] => .ok []
  | item :: rest => do
    let first ← write item
    return first :: (← writeItems rest)

/-- The documents of the values of a dictionary, by key. -/
def writeEntries : List (Value × Value) → List (Value × Except Failure String)
  | [] => []
  | (key, value) :: rest => (key, write value) :: writeEntries rest

end

@[simp] theorem write_text (s : String) : write (.text s) = .ok (quote s) := by simp [write]

end Rollout.Document
