import Rollout.Document.Writer

/-!
# Reading documents

The inverse of writing, for all that a file may hold: any value, in any spacing, with escapes of
any kind. The words for "not a number" and the infinities are read as numbers. A repeated key keeps
its first place and takes the last value.

Each function returns what it read together with the rest of the text. Recursion is bounded by
`fuel`, which `read` sets above the length of the text. Lists and dictionaries may lie inside each
other up to a limit; `room` is what is left of it.
-/

namespace Rollout.Document

open Rollout.Numeral

/-- The blanks between the parts of a document. -/
def isSpace (c : Char) : Bool := c = ' ' || c = '\t' || c = '\n' || c = '\r'

/-- The text after leading blanks. -/
def skipSpace (text : List Char) : List Char := text.dropWhile isSpace

/-- The text after a word, if it starts with the word. -/
def afterWord? (word : String) (text : List Char) : Option (List Char) :=
  if word.toList.isPrefixOf text then some (text.drop word.length) else none

/-! ### Texts -/

/-- The value of a hexadecimal digit of either case. -/
def hexValue? (c : Char) : Option Nat :=
  if '0' ≤ c ∧ c ≤ '9' then some (c.toNat - 48)
  else if 'a' ≤ c ∧ c ≤ 'f' then some (c.toNat - 87)
  else if 'A' ≤ c ∧ c ≤ 'F' then some (c.toNat - 55)
  else none

/-- A 16-bit unit of four hexadecimal digits. -/
def readUnit? : List Char → Option (Nat × List Char)
  | a :: b :: c :: d :: rest => do
    let unit := 4096 * (← hexValue? a) + 256 * (← hexValue? b) + 16 * (← hexValue? c)
      + (← hexValue? d)
    return (unit, rest)
  | _ => none

/-- The character of a unit that stands alone; half a pair has none. -/
def unitChar (unit : Nat) : Char :=
  if 0xD800 ≤ unit ∧ unit < 0xE000 then '\ufffd' else Char.ofNat unit

/-- The second half of a pair, right after the first. -/
def lowUnit? : List Char → Option (Nat × List Char)
  | '\\' :: 'u' :: rest =>
    (readUnit? rest).filter fun read => 0xDC00 ≤ read.1 && read.1 < 0xE000
  | _ => none

/-- The character of an escape by units, and the rest. -/
def readUnits? (text : List Char) : Option (Char × List Char) := do
  let (unit, rest) ← readUnit? text
  if 0xD800 ≤ unit ∧ unit < 0xDC00 then
    -- The first half of a pair counts as such only if the second one follows at once.
    match lowUnit? rest with
    | some (low, rest) =>
      return (Char.ofNat (0x10000 + 0x400 * (unit - 0xD800) + (low - 0xDC00)), rest)
    | none => return (unitChar unit, rest)
  else return (unitChar unit, rest)

/-- The character that a letter after a backslash stands for. -/
def letter? : Char → Option Char
  | '"' => some '"'
  | '\\' => some '\\'
  | '/' => some '/'
  | 'b' => some '\x08'
  | 'f' => some '\x0c'
  | 'n' => some '\n'
  | 'r' => some '\r'
  | 't' => some '\t'
  | _ => none

/-- The characters up to the closing quotation mark. -/
def readText? : Nat → List Char → Option (List Char × List Char)
  | 0, _ => none
  | fuel + 1, text =>
    match text with
    | [] => none
    | '"' :: rest => some ([], rest)
    | '\\' :: 'u' :: rest => do
      let (c, rest) ← readUnits? rest
      let (tail, rest) ← readText? fuel rest
      return (c :: tail, rest)
    | '\\' :: c :: rest => do
      let c ← letter? c
      let (tail, rest) ← readText? fuel rest
      return (c :: tail, rest)
    | c :: rest => do
      -- Control characters have to be escaped, and a backslash at the very end escapes nothing.
      if c.toNat < 0x20 ∨ c = '\\' then none
      let (tail, rest) ← readText? fuel rest
      return (c :: tail, rest)

/-! ### Numbers -/

/-- The fraction of a number: a point with digits after it. -/
def readFraction (text : List Char) : List Nat × List Char :=
  match text with
  | '.' :: rest =>
    match spanPlain asciiDigit? rest with
    | ([], _) => ([], text)
    | read => read
  | _ => ([], text)

/-- The exponent of a number: its letter, an optional sign, and digits. -/
def readExponent (text : List Char) : Option Int × List Char :=
  match text with
  | c :: rest =>
    if c = 'e' ∨ c = 'E' then
      let body := splitSign rest
      match spanPlain asciiDigit? body.2 with
      | ([], _) => (none, text)
      | (digits, tail) => (some (signed body.1 (ofDigits digits)), tail)
    else (none, text)
  | [] => (none, text)

/-- The digits before the point: a single zero, or digits that start with none. -/
def readWhole (text : List Char) : List Nat × List Char :=
  match text with
  -- What follows a zero is no digit of the number, so it will not fit later.
  | '0' :: rest => ([0], rest)
  | _ => spanPlain asciiDigit? text

/-- A number: an integer unless it has a fraction or an exponent. -/
def readNumber (text : List Char) : Except Failure (Value × List Char) :=
  let (negative, unsigned) := match text with
    | '-' :: rest => (true, rest)
    | _ => (false, text)
  match readWhole unsigned with
  | ([], _) => .error .malformedDocument
  | (whole, rest) =>
    let fraction := readFraction rest
    let exponent := readExponent fraction.2
    -- Only integers are limited in their digits; other numbers are rounded.
    if fraction.1.isEmpty && exponent.1.isNone then
      if whole.length > digitLimit then .error (.numeralTooLong whole.length)
      else .ok (.int (signed negative (ofDigits whole)), rest)
    else
      let written := .decimal negative (whole ++ fraction.1)
        (exponent.1.getD 0 - fraction.1.length)
      .ok (.real (.ofWritten written), exponent.2)

/-! ### Values -/

/-- The words of a document and what they stand for. -/
def words : List (String × Value) :=
  [("null", .none), ("true", .bool true), ("false", .bool false), ("NaN", .real .nan),
   ("Infinity", .real (.infinite false)), ("-Infinity", .real (.infinite true))]

/-- A word or a number. -/
def readScalar (text : List Char) : Except Failure (Value × List Char) :=
  match words.findSome? fun word => (afterWord? word.1 text).map (word.2, ·) with
  | some read => .ok read
  | none => readNumber text

/-- The most lists and dictionaries that may lie inside each other. -/
def depthLimit : Nat := 980

mutual

/-- A value of any kind. The first character decides which, and what is none of the three kinds with
a mark of their own is a word or a number. -/
def readValue (room : Nat) : Nat → List Char → Except Failure (Value × List Char)
  | 0, _ => .error .malformedDocument
  | fuel + 1, text =>
    match text with
    | '"' :: rest =>
      match readText? (rest.length + 1) rest with
      | some (s, rest) => .ok (.text (String.ofList s), rest)
      | none => .error .malformedDocument
    | '[' :: rest =>
      if room = 0 then .error (.tooDeep "array")
      else
        match skipSpace rest with
        | ']' :: rest => .ok (.list [], rest)
        | rest => do
          let (items, rest) ← readItems (room - 1) fuel rest
          return (.list items, rest)
    | '\x7b' :: rest =>
      if room = 0 then .error (.tooDeep "object")
      else
        match skipSpace rest with
        | '\x7d' :: rest => .ok (.dict [], rest)
        | rest => do
          let (entries, rest) ← readEntries (room - 1) fuel rest
          return (.dict (Value.collect entries), rest)
    | _ => readScalar text

/-- The items of a list up to its closing bracket. -/
def readItems (room : Nat) : Nat → List Char → Except Failure (List Value × List Char)
  | 0, _ => .error .malformedDocument
  | fuel + 1, text => do
    let (item, rest) ← readValue room fuel text
    match skipSpace rest with
    | ']' :: rest => return ([item], rest)
    | ',' :: rest => do
      let (items, rest) ← readItems room fuel (skipSpace rest)
      return (item :: items, rest)
    | _ => throw .malformedDocument

/-- The entries of a dictionary up to its closing brace. -/
def readEntries (room : Nat) :
    Nat → List Char → Except Failure (List (Value × Value) × List Char)
  | 0, _ => .error .malformedDocument
  | fuel + 1, text =>
    match text with
    | '"' :: rest =>
      match readText? (rest.length + 1) rest with
      | none => .error .malformedDocument
      | some (key, rest) =>
        match skipSpace rest with
        | ':' :: rest => do
          let (value, rest) ← readValue room fuel (skipSpace rest)
          let entry := (Value.text (String.ofList key), value)
          match skipSpace rest with
          -- No comma may stand in front of the brace.
          | '\x7d' :: rest => return ([entry], rest)
          | ',' :: rest => do
            let (entries, rest) ← readEntries room fuel (skipSpace rest)
            return (entry :: entries, rest)
          | _ => throw .malformedDocument
        | _ => .error .malformedDocument
    | _ => .error .malformedDocument

end

/-- The value of a document. The bound is above twice the length of the text: each step of the
reader takes a character, or is followed by one that does. -/
def read (document : String) : Except Failure Value := do
  let text := document.toList
  let (value, rest) ← readValue depthLimit (2 * text.length + 4) (skipSpace text)
  if (skipSpace rest).isEmpty then return value else throw .malformedDocument

end Rollout.Document
