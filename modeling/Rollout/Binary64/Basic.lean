import Rollout.Numeral.Decimal

/-!
# Binary floating-point numbers of 64 bits

The numbers themselves, as exact data: a finite number is a significand times a power of two. All
operations are exact arithmetic on integers followed by one rounding to nearest, ties to even, so
they can be reasoned about like any other function on naturals.

* `ofRatio`: the nearest number to a quotient of naturals, infinity beyond the largest.
* `ofWritten`, `ofInt?`: the nearest number to a decimal, and to an integer.
* `compareInt?`, `compare?`: exact comparisons; no order with "not a number".
* `truncate?`: the integer part.
-/

namespace Rollout

/-- A floating-point number. A finite one is `± significand * 2 ^ exponent`, kept with the full
53-bit significand wherever the exponent is above the least one. -/
inductive Binary64 where
  | nan
  | infinite (negative : Bool)
  | finite (negative : Bool) (significand : Nat) (exponent : Int)
deriving DecidableEq, Repr

namespace Binary64

open Numeral (twoTo tenTo)

/-- The exponent of the least positive number. -/
def leastExponent : Int := -1074

/-- The exponent of the largest finite numbers. -/
def greatestExponent : Int := 971

/-- Zero with a sign. -/
def zero (negative : Bool) : Binary64 := .finite negative 0 leastExponent

/-! ### Rounding -/

/-- A quotient rounded to the nearest natural number, ties to even. -/
def roundDiv (numerator denominator : Nat) : Nat :=
  let quotient := numerator / denominator
  let remainder := numerator % denominator
  if 2 * remainder < denominator then quotient
  else if 2 * remainder > denominator then quotient + 1
  -- Exactly in the middle the even neighbour is taken.
  else if quotient % 2 = 0 then quotient else quotient + 1

/-- The quotient `numerator / (denominator * 2 ^ exponent)` as a quotient of naturals. -/
def scaleDown (numerator denominator : Nat) (exponent : Int) : Nat × Nat :=
  (numerator * twoTo (-exponent).toNat, denominator * twoTo exponent.toNat)

/-- The exponent at which a positive quotient has a 53-bit significand, or the least exponent. At
the least exponent the significand may be shorter, and then the numbers have no more precision to
give. -/
def exponentOf (numerator denominator : Nat) : Int :=
  -- The bit lengths give the exponent up to one.
  let guess : Int := (numerator.log2 : Int) - denominator.log2 - 52
  let scaled := scaleDown numerator denominator guess
  let exact := if scaled.1 < twoTo 52 * scaled.2 then guess - 1 else guess
  max exact leastExponent

/-- The nearest number to a quotient of naturals with a positive denominator. -/
def ofRatio (negative : Bool) (numerator denominator : Nat) : Binary64 :=
  if numerator = 0 then zero negative
  else
    let exponent := exponentOf numerator denominator
    let scaled := scaleDown numerator denominator exponent
    let significand := roundDiv scaled.1 scaled.2
    -- Rounding up may carry into a 54th bit.
    let (significand, exponent) :=
      if significand = twoTo 53 then (twoTo 52, exponent + 1) else (significand, exponent)
    if exponent > greatestExponent then .infinite negative
    else .finite negative significand exponent

/-- The nearest number to a number as it was written. The length of the digits settles decimals
that are far too large or too small without raising ten to their exponent. -/
def ofWritten : Numeral.Written → Binary64
  | .nan => .nan
  | .infinite negative => .infinite negative
  | .decimal negative digits exponent =>
    let significant := digits.dropWhile (· = 0)
    -- The power of ten that the number lies below, which decides the extreme cases.
    let magnitude : Int := significant.length + exponent
    if significant.isEmpty || magnitude < -330 then zero negative
    else if magnitude > 310 then .infinite negative
    else
      let digits := Numeral.ofDigits significant
      ofRatio negative (digits * tenTo exponent.toNat) (tenTo (-exponent).toNat)

/-- The nearest number to an integer, unless the integer is beyond the largest number. -/
def ofInt? (n : Int) : Option Binary64 :=
  match ofRatio (n < 0) n.natAbs 1 with
  | .infinite _ => none
  | number => some (if n = 0 then zero false else number)

/-! ### Products and quotients -/

/-- The nearest number to the product of two finite numbers. -/
def mul : Binary64 → Binary64 → Binary64
  | .finite s m e, .finite s' m' e' =>
    .ofRatio (s != s') (m * m' * twoTo (e + e').toNat) (twoTo (-(e + e')).toNat)
  | _, _ => .nan

/-- The nearest number to the quotient of two finite numbers, the second one not zero. -/
def div : Binary64 → Binary64 → Binary64
  | .finite s m e, .finite s' m' e' =>
    .ofRatio (s != s') (m * twoTo (e - e').toNat) (m' * twoTo (e' - e).toNat)
  | _, _ => .nan

/-! ### Exact values and comparisons -/

/-- The value of a finite number as a quotient. -/
def ratio? : Binary64 → Option (Int × Nat)
  | .finite negative significand exponent =>
    some (Numeral.signed negative (significand * twoTo exponent.toNat), twoTo (-exponent).toNat)
  | _ => none

/-- The exact order between two numbers; none with "not a number". The two zeros are equal. -/
def compare? : Binary64 → Binary64 → Option Ordering
  | .nan, _ | _, .nan => none
  | .infinite a, .infinite b => some (compare (!a) (!b))
  | .infinite negative, _ => some (if negative then .lt else .gt)
  | _, .infinite negative => some (if negative then .gt else .lt)
  | .finite s m e, .finite s' m' e' =>
    -- Over the smaller exponent both are integers, and are compared as such.
    let shared := min e e'
    some (compare (Numeral.signed s (m * twoTo (e - shared).toNat))
      (Numeral.signed s' (m' * twoTo (e' - shared).toNat)))

/-- The exact order between a number and an integer. -/
def compareInt? (number : Binary64) (n : Int) : Option Ordering :=
  match number with
  | .nan => none
  | .infinite negative => some (if negative then .lt else .gt)
  | .finite negative significand exponent =>
    some (compare (Numeral.signed negative (significand * twoTo exponent.toNat))
      (n * twoTo (-exponent).toNat))

/-- Below zero; neither a zero nor "not a number" is. -/
def isNegative (number : Binary64) : Bool := number.compareInt? 0 == some .lt

/-- Above zero. -/
def isPositive (number : Binary64) : Bool := number.compareInt? 0 == some .gt

/-- Neither zero has a truth of its own: a number counts as false only if it is zero. -/
def isZero (number : Binary64) : Bool := number.compareInt? 0 == some .eq

/-- The integer part of a finite number. -/
def truncate? (number : Binary64) : Option Int :=
  number.ratio?.map fun (numerator, denominator) => Int.tdiv numerator denominator

/-- The integer that a number is, if it is one. Beyond 53 bits every number is an integer. -/
def integer? (number : Binary64) : Option Int :=
  number.truncate?.filter fun n => number.compareInt? n == some .eq

/-- The number, but plain zero for all that is not above zero. -/
def clampPositive (number : Binary64) : Binary64 :=
  if number.isPositive then number else zero false

end Binary64

end Rollout
