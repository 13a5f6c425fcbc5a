import Rollout.Failure

/-!
# Conversions between values

Settings arrive as values or as texts. `Value.toInteger` and `Value.toReal` are the strict
conversions that fail with a cause; the settings themselves fall back to a default instead.
`Value.toDictionary` makes a dictionary of a list of pairs.
-/

namespace Rollout

namespace Numeral

/-- The failure for a text that is not read as an integer. -/
def Fault.failure (given : String) : Fault → Failure
  | .malformed => .notInteger given
  | .tooLong digits => .numeralTooLong digits

end Numeral

/-- An integer read from a text. -/
def integerOfText (text : String) : Except Failure Int :=
  match Numeral.readInteger text with
  | .ok n => .ok n
  | .error fault => .error (fault.failure text)

/-- A floating-point number read from a text. -/
def realOfText (text : String) : Except Failure Binary64 :=
  match Numeral.readReal? text with
  | some written => .ok (.ofWritten written)
  | none => .error (.notReal text)

namespace Value

/-- The integer of a value: a number loses its fraction, a text is read. Values without a number in
them are refused for their kind. -/
def toInteger : Value → Except Failure Int
  | .bool b => .ok (if b then 1 else 0)
  | .int n => .ok n
  | .real .nan => .error .nanToInteger
  | .real x =>
    match x.truncate? with
    | some n => .ok n
    | Option.none => .error .infinityToInteger
  | .text s => integerOfText s
  | .none | .list _ | .dict _ => .error .unsuitable

/-- The floating-point number of a value: an integer is rounded, a text is read. An integer beyond
all numbers is refused, whereas such a text is infinite. -/
def toReal : Value → Except Failure Binary64
  | .bool b => .ok ((Binary64.ofInt? (if b then 1 else 0)).getD .nan)
  | .int n =>
    match Binary64.ofInt? n with
    | some x => .ok x
    | Option.none => .error .integerTooLarge
  | .real x => .ok x
  | .text s => realOfText s
  | .none | .list _ | .dict _ => .error .unsuitable

/-- A dictionary from entries in order of arrival, whose keys must be able to serve as keys. -/
def dictionary? {α : Type} (entries : List (Value × α)) : Except Failure (List (Value × α)) :=
  if entries.all fun entry => entry.1.isKey then .ok (collect entries) else .error .unsuitable

/-- The parts of a value that has parts: the characters of a text, the items of a list, the keys of
a dictionary. -/
def parts? : Value → Option (List Value)
  | .text s => some (s.toList.map fun c => .text c.toString)
  | .list items => some items
  | .dict entries => some (entries.map (·.1))
  | .none | .bool _ | .int _ | .real _ => Option.none

/-- Writes entries that are given as pairs, one after the other; `index` counts the pairs. -/
def insertPairs (index : Nat) (entries : List (Value × Value)) :
    List Value → Except Failure (List (Value × Value))
  | [] => .ok entries
  | item :: rest =>
    match item.parts? with
    | Option.none => .error .unsuitable
    -- Items with two parts of any kind pass for pairs, also texts of two characters.
    | some [key, value] =>
      if key.isKey then insertPairs (index + 1) (insert key value entries) rest
      else .error .unsuitable
    | some parts => .error (.notPair index parts.length)

/-- The dictionary of a value: a dictionary is itself, and what has parts is taken for a list of
pairs. -/
def toDictionary (value : Value) : Except Failure Value :=
  match value with
  | .dict entries => .ok (.dict entries)
  | value =>
    match value.parts? with
    | some items => (insertPairs 0 [] items).map .dict
    | Option.none => .error .unsuitable

@[simp] theorem toInteger_int (n : Int) : (Value.int n).toInteger = .ok n := rfl

@[simp] theorem toReal_real (x : Binary64) : (Value.real x).toReal = .ok x := rfl

@[simp] theorem toDictionary_dict (entries : List (Value × Value)) :
    (Value.dict entries).toDictionary = .ok (.dict entries) := rfl

end Value

end Rollout
