import Rollout.Numeral.Integer

/-!
# Decimal numerals

Reading a number with an optional fraction and exponent. The result is exact: a list of digits and
a power of ten, or one of the words for infinity and for "not a number". Rounding to a machine
number is a separate step.

Two grammars share the shape. `readReal?` takes digits of any script, underscores between digits,
and the words; `readPlain?` takes ASCII digits only, between ASCII blanks, with exponents in a
narrow range, and tells whether the text was written as an integer.
-/

namespace Rollout.Numeral

open Rollout.Text

/-- An exact number as it was written. -/
inductive Written where
  | nan
  | infinite (negative : Bool)
  | decimal (negative : Bool) (digits : List Nat) (exponent : Int)
deriving DecidableEq, Repr

/-- A decimal without its sign: digits, power of ten, and whether a point or an exponent was
written. -/
structure Unsigned where
  digits : List Nat
  exponent : Int
  integral : Bool

/-- How the parts of a decimal are read. The exponent has a reading of its own, since it may be cut
where it has too many digits. -/
structure Grammar where
  span : List Char → List Nat × List Char
  exponent : List Nat → Nat

/-- The exponent part at the front of a text, if there is one. -/
def Grammar.exponentPart? (grammar : Grammar) : List Char → Option (Option Int × List Char)
  | [] => some (none, [])
  | c :: rest =>
    if c = 'e' ∨ c = 'E' then
      let body := splitSign rest
      match grammar.span body.2 with
      -- The letter of an exponent without digits makes the whole text none that can be read.
      | ([], _) => none
      | (digits, tail) => some (some (signed body.1 (grammar.exponent digits)), tail)
    else some (none, c :: rest)

/-- Digits, fraction and exponent, with nothing after them. -/
def Grammar.unsigned? (grammar : Grammar) (text : List Char) : Option Unsigned :=
  let whole := grammar.span text
  let (fraction, pointed, tail) : List Nat × Bool × List Char :=
    match whole.2 with
    | '.' :: rest => ((grammar.span rest).1, true, (grammar.span rest).2)
    | rest => ([], false, rest)
  -- A point alone is no number, but digits on either side of it are enough.
  if whole.1.isEmpty && fraction.isEmpty then none
  else
    match grammar.exponentPart? tail with
    | some (exponent, []) =>
      some {
        digits := whole.1 ++ fraction
        exponent := exponent.getD 0 - fraction.length
        integral := !pointed && exponent.isNone }
    | _ => none

/-- The words that are numbers, in any mixture of ASCII cases. -/
def word? (negative : Bool) (text : List Char) : Option Written :=
  match String.ofList (text.map Char.toLower) with
  | "inf" | "infinity" => some (.infinite negative)
  | "nan" => some .nan
  | _ => none

/-- Digits of any script, with underscores between digits. -/
def anyScript : Grammar := ⟨spanDigits digitValue?, ofDigits⟩

/-- Reads a number with digits of any script, underscores between digits, and the words. -/
def readReal? (text : String) : Option Written :=
  let body := splitSign (trim text.toList)
  match word? body.1 body.2 with
  | some written => some written
  | none =>
    (anyScript.unsigned? body.2).map fun number =>
      .decimal body.1 number.digits number.exponent

/-- The blanks of ASCII: space, and tab to carriage return. -/
def isAsciiBlank (c : Char) : Bool := c = ' ' || ('\t' ≤ c && c ≤ '\r')

/-- From here on the further digits of an exponent are not counted, … -/
def exponentLimit : Nat := 10000

/-- … so that an exponent has at most five digits. -/
def narrowExponent (digits : List Nat) : Nat :=
  digits.foldl (fun value digit =>
    -- Reaching the limit, the value stays there, whatever comes.
    if value < exponentLimit then 10 * value + digit else exponentLimit) 0

/-- ASCII digits. -/
def asciiOnly : Grammar := ⟨spanPlain asciiDigit?, narrowExponent⟩

/-- A number that was read from ASCII digits. -/
structure Plain extends Unsigned where
  negative : Bool

/-- Reads a number of ASCII digits between ASCII blanks. -/
def readPlain? (text : String) : Option Plain :=
  let stripped := text.toList.dropWhile isAsciiBlank
  let body := splitSign (stripped.reverse.dropWhile isAsciiBlank).reverse
  (asciiOnly.unsigned? body.2).map fun number => { number with negative := body.1 }

end Rollout.Numeral
