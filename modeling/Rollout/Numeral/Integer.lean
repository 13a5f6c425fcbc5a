import Rollout.Text.Blank
import Rollout.Text.DecimalDigit

/-!
# Integer numerals

Reading an integer from text. A numeral may stand between blanks and have one sign; its digits may
be of any script, and a single underscore may stand between two digits. A numeral of more than
`digitLimit` digits is refused, and an integer that needs more digits is not written either
(`Writable`).

`spanDigits` cuts the digits off the front of a text; `ofDigits` gives their value.
-/

namespace Rollout.Numeral

open Rollout.Text

/-- The most decimal digits that an integer is read from or written with. It guards against
conversions that take long, and integers in between are not limited by it. -/
def digitLimit : Nat := 4300

/-- A power of two. -/
def twoTo (n : Nat) : Nat := Nat.pow 2 n

/-- A power of ten. -/
def tenTo (n : Nat) : Nat := Nat.pow 10 n

/-- The least natural number that needs more digits than the limit. -/
def writableBound : Nat := tenTo digitLimit

/-- An integer is written only if its digits are within the limit. -/
def Writable (n : Int) : Bool := n.natAbs < writableBound

/-- Why a text is not read as an integer. The number of digits goes into the message. -/
inductive Fault where
  | malformed
  | tooLong (digits : Nat)
deriving DecidableEq, Repr

/-! ### Digits -/

/-- The value of digits, the most significant first. -/
def ofDigits (digits : List Nat) : Nat :=
  digits.foldl (fun value digit => 10 * value + digit) 0

/-- The value of an ASCII digit. -/
def asciiDigit? (c : Char) : Option Nat :=
  if c.isDigit then some (c.toNat - 48) else none

/-- Cuts the run of digits off the front of a text. -/
def spanPlain (digit? : Char → Option Nat) : List Char → List Nat × List Char
  | [] => ([], [])
  | c :: rest =>
    match digit? c with
    | none => ([], c :: rest)
    | some digit => ((digit :: (spanPlain digit? rest).1), (spanPlain digit? rest).2)

/-- Cuts off the run of digits, where a single underscore may stand between two digits. -/
def spanDigits (digit? : Char → Option Nat) : List Char → List Nat × List Char
  | [] => ([], [])
  | [c] =>
    match digit? c with
    | none => ([], [c])
    | some digit => ([digit], [])
  -- The underscore is taken only with a digit on its other side, so it is never the last that is
  -- taken.
  | c :: '_' :: next :: rest =>
    match digit? c with
    | none => ([], c :: '_' :: next :: rest)
    | some digit =>
      match digit? next with
      | none => ([digit], '_' :: next :: rest)
      | some _ =>
        let tail := spanDigits digit? (next :: rest)
        (digit :: tail.1, tail.2)
  | c :: next :: rest =>
    match digit? c with
    | none => ([], c :: next :: rest)
    | some digit =>
      let tail := spanDigits digit? (next :: rest)
      (digit :: tail.1, tail.2)

/-! ### Signs -/

/-- Takes an optional sign off the front; the flag says whether it was a minus. -/
def splitSign : List Char → Bool × List Char
  | '-' :: rest => (true, rest)
  | '+' :: rest => (false, rest)
  | rest => (false, rest)

/-- An absolute value with its sign. -/
def signed (negative : Bool) (magnitude : Nat) : Int :=
  if negative then -(magnitude : Int) else magnitude

/-! ### Reading -/

/-- Reads an integer numeral. The digits at the front are counted before the text after them is
looked at, unless an underscore follows them. -/
def readInteger (text : String) : Except Fault Int :=
  let body := splitSign (trim text.toList)
  match spanDigits digitValue? body.2 with
  -- An underscore behind the digits is no part of the numeral, however many digits there are.
  | ([], _) | (_, '_' :: _) => .error .malformed
  | (digits, rest) =>
    if digits.length > digitLimit then .error (.tooLong digits.length)
    else if rest.isEmpty then .ok (signed body.1 (ofDigits digits))
    else .error .malformed

@[simp] theorem ofDigits_nil : ofDigits [] = 0 := rfl

@[simp] theorem signed_false (magnitude : Nat) : signed false magnitude = magnitude := rfl

@[simp] theorem signed_true (magnitude : Nat) : signed true magnitude = -(magnitude : Int) := rfl

end Rollout.Numeral
