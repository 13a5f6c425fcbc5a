import Rollout.Binary64.Extended
import Rollout.Binary64.Shortest

/-!
# Numbers in a database

How a database reads the numerals that go to a column of integers, and how it writes the numbers
that go to a column of texts. Neither is exact. Both scale by powers of ten in numbers of 64
significant bits and round to 53 bits afterwards, so the result may be a neighbour of the nearest
number.

* `ofPlain` gives the value of a numeral: the leading digits are kept as long as they fit 64 bits,
  and the rest counts only by its length.
* `text` writes a number with fifteen significant digits.
-/

namespace Rollout.CellNumber

open Numeral (twoTo tenTo)

/-! ### Reading -/

/-- The first integer beyond 64 bits. -/
def bound : Int := twoTo 63

/-- Integers of 64 bits. -/
def fits (n : Int) : Bool := -bound ≤ n && n < bound

/-- From here on a significand takes no further digit. -/
def fullSignificand : Nat := (twoTo 63 - 10) / 10

/-- The value of the leading digits that a significand takes, and the number of the digits left.
Digits that are left are lost for the value, and count only by their number. -/
def leading (digits : List Nat) : Nat × Nat :=
  digits.foldl (fun (significand, left) digit =>
    if significand < fullSignificand then (10 * significand + digit, left)
    else (significand, left + 1)) (0, 0)

/-- Moves zeros from a positive exponent into the significand, as long as it stays small. The
smaller the exponent, the less is lost by scaling. -/
def fill : Nat → Nat → Nat × Nat
  | significand, 0 => (significand, 0)
  | significand, exponent + 1 =>
    if significand < (twoTo 63 - 1) / 10 then fill (10 * significand) exponent
    else (significand, exponent + 1)

/-- Moves zeros at the end of the significand into a negative exponent, given without its sign. -/
def strip : Nat → Nat → Nat × Nat
  | significand, 0 => (significand, 0)
  | significand, exponent + 1 =>
    if significand % 10 = 0 then strip (significand / 10) exponent else (significand, exponent + 1)

/-- Exponents up to here are scaled by one power of ten. -/
def plainExponent : Nat := 307

/-- From here on the result is infinite, or zero. -/
def extremeExponent : Nat := 342

/-- The power of ten that large exponents are scaled by first, as a number of 53 bits. -/
def largeScale : Nat := tenTo 308

/-- `significand * 10 ^ exponent`, for a positive significand. -/
def scaledUp (negative : Bool) (significand exponent : Nat) : Binary64 :=
  let (significand, exponent) := fill significand exponent
  let start := Extended.ofNat significand
  if exponent ≤ plainExponent then
    (start.mul (.powerOfTen exponent)).toBinary64 negative
  else if exponent < extremeExponent then
    -- Two scalings round once more than one, which may show in the last place.
    let near := (start.mul (.powerOfTen (exponent - 308))).toBinary64 negative
    near.mul (.ofRatio false largeScale 1)
  else .infinite negative

/-- `significand / 10 ^ exponent`, for a positive significand. -/
def scaledDown (negative : Bool) (significand exponent : Nat) : Binary64 :=
  let (significand, exponent) := strip significand exponent
  let start := Extended.ofNat significand
  if exponent ≤ plainExponent then
    (start.div (.powerOfTen exponent)).toBinary64 negative
  else if exponent < extremeExponent then
    -- As above, the other way.
    let near := (start.div (.powerOfTen (exponent - 308))).toBinary64 negative
    near.div (.ofRatio false largeScale 1)
  else .zero negative

/-- The number that a numeral is taken for. It is the nearest one or a neighbour of it, since the
digits are cut and the scaling rounds. -/
def ofPlain (numeral : Numeral.Plain) : Binary64 :=
  let (significand, left) := leading numeral.digits
  let exponent := numeral.exponent + left
  if significand = 0 then .zero numeral.negative
  else
    -- The sign of the exponent decides in which direction there is scaling.
    match exponent with
    | .ofNat exponent => scaledUp numeral.negative significand exponent
    | .negSucc exponent => scaledDown numeral.negative significand (exponent + 1)

/-- The integer of 64 bits that a numeral is, if it was written as one. -/
def integer? (numeral : Numeral.Plain) : Option Int :=
  if numeral.integral then
    some (Numeral.signed numeral.negative (Numeral.ofDigits numeral.digits)) |>.filter fits
  else none

/-! ### Writing -/

/-- Numbers in a column of texts are written positionally below 15 digits before the point, and zero
has no sign. -/
def layout : Binary64.Layout where
  plainFrom := -4
  plainBelow := 15
  pointBeforeExponent := true
  signedZero := false
  nan := "NaN"
  infinity := "Inf"

/-- A power of ten as a number of 53 bits. -/
def power (exponent : Nat) : Extended := .ofBinary64 (.ofRatio false (tenTo exponent) 1)

/-- A negative power of ten as a number of 53 bits. -/
def fractionalPower (exponent : Nat) : Extended := .ofBinary64 (.ofRatio false 1 (tenTo exponent))

/-- Multiplies a scale by a power of ten as long as it stays at most the number, and counts the
exponent; `fuel` bounds the number of steps. -/
def climb (x : Extended) (step : Nat) : Nat → Extended × Int → Extended × Int
  | 0, reached => reached
  | fuel + 1, (scale, exponent) =>
    let next := (power step).mul scale
    if next.atMost x then climb x step fuel (next, exponent + step) else (scale, exponent)

/-- Multiplies a number by a power of ten as long as it is below a bound, and counts the exponent;
`fuel` bounds the number of steps. -/
def lift (below : Extended) (step : Nat) : Nat → Extended × Int → Extended × Int
  | 0, reached => reached
  | fuel + 1, (x, exponent) =>
    if below.atMost x then (x, exponent)
    else lift below step fuel (x.mul (power step), exponent - step)

/-- A positive number as a number between one and ten and a power of ten. -/
def normalised (x : Extended) : Extended × Int :=
  -- Large steps first: a hundred, ten and one power at a time. A number below one is lifted
  -- instead.
  let (scale, exponent) := climb x 1 20 (climb x 10 20 (climb x 100 4 (1, 0)))
  lift 1 1 20 (lift (fractionalPower 8) 8 50 (x.div scale, exponent))

/-- Half a unit of the fifteenth significant digit, as a product of two numbers of 53 bits. -/
def halfUnit : Extended :=
  .ofBinary64 ((Binary64.ofRatio false 5 (tenTo 5)).mul (.ofRatio false 1 (tenTo 10)))

/-- A number between one and ten with half a unit added, so that its digits can be cut off. -/
def roundedUp (reached : Extended × Int) : Extended × Int :=
  let sum := reached.1.add halfUnit
  if Extended.atMost 10 sum then (sum.mul (fractionalPower 1), reached.2 + 1) else (sum, reached.2)

/-- Appends the next digits of a number below ten to those before. -/
def digitsOf (x : Extended) (digits : Nat) : Nat → Nat
  | 0 => digits
  | count + 1 => digitsOf (x.fraction.mul 10) (10 * digits + x.floor) count

/-- The fifteen significant digits of a positive number, without the zeros at their end. Half a unit
is added first, so that cutting the digits off is rounding them. -/
def fifteenDigits (significand : Nat) (exponent : Int) : Binary64.Decimal :=
  let (x, top) := roundedUp (normalised ⟨significand, exponent⟩)
  (Binary64.Decimal.mk (digitsOf x 0 15) (top - 14)).stripZeros 20

/-- The text of a number in a column of texts. -/
def text (number : Binary64) : String := layout.text fifteenDigits number

end Rollout.CellNumber
