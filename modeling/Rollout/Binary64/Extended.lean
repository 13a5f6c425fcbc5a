import Rollout.Binary64.Basic

/-!
# Binary floating-point numbers with 64 significant bits

Databases scale numerals by powers of ten in numbers that are wider than the ones they keep. Such a
number is a significand times a power of two; every operation is exact arithmetic on naturals
followed by one rounding to 64 significant bits, ties to even. There are no signs, and exponents
have no bounds: the scalings that are done here stay far away from the bounds that a machine has.

* `ofProduct`, `ofRatio`: the nearest number to a natural times a power of two, and to a quotient.
* `mul`, `div`, `add`: rounded operations, all in terms of the former.
* `powerOfTen`: a power of ten by repeated squaring, which rounds on the way.
* `toBinary64`: the second rounding, to 53 bits.
-/

namespace Rollout

/-- The number `significand * 2 ^ exponent`. Several pairs may stand for one number, and rounding
only takes bits away that are too many. -/
structure Extended where
  significand : Nat
  exponent : Int
deriving DecidableEq, Repr

namespace Extended

open Numeral (twoTo)
open Binary64 (roundDiv scaleDown)

/-! ### Rounding -/

/-- The number of significant bits. -/
def width : Nat := 64

/-- The nearest number to `significand * 2 ^ exponent`. A significand that fits the bits is kept as
it is. -/
def ofProduct (significand : Nat) (exponent : Int) : Extended :=
  let surplus := significand.log2 + 1 - width
  ⟨roundDiv significand (twoTo surplus), exponent + surplus⟩

/-- The nearest number to a quotient of naturals with a positive denominator. -/
def ofRatio (numerator denominator : Nat) : Extended :=
  -- The bit lengths give the exponent up to one.
  let guess : Int := (numerator.log2 : Int) - denominator.log2 - (width - 1 : Int)
  let scaled := scaleDown numerator denominator guess
  let exponent := if scaled.1 < twoTo (width - 1) * scaled.2 then guess - 1 else guess
  let scaled := scaleDown numerator denominator exponent
  ⟨roundDiv scaled.1 scaled.2, exponent⟩

/-- A natural number, rounded. -/
def ofNat (n : Nat) : Extended := ofProduct n 0

/-- A natural number is the nearest one to itself. -/
instance (n : Nat) : OfNat Extended n := ⟨ofNat n⟩

/-- A finite number of 53 bits without its sign. It needs no rounding. -/
def ofBinary64 : Binary64 → Extended
  | .finite _ significand exponent => ⟨significand, exponent⟩
  | .nan | .infinite _ => 0

/-- The nearest number of 53 bits, with a sign. -/
def toBinary64 (negative : Bool) (x : Extended) : Binary64 :=
  .ofRatio negative (x.significand * twoTo x.exponent.toNat) (twoTo (-x.exponent).toNat)

/-! ### Operations -/

/-- The significand that a number has with a smaller exponent. -/
def aligned (x : Extended) (exponent : Int) : Nat :=
  x.significand * twoTo (x.exponent - exponent).toNat

/-- A rounded product. -/
def mul (x y : Extended) : Extended :=
  ofProduct (x.significand * y.significand) (x.exponent + y.exponent)

/-- A rounded quotient. -/
def div (x y : Extended) : Extended :=
  let quotient := ofRatio x.significand y.significand
  { quotient with exponent := quotient.exponent + x.exponent - y.exponent }

/-- A rounded sum. -/
def add (x y : Extended) : Extended :=
  -- Nothing is lost in bringing both to the smaller exponent; the sum is rounded once.
  let shared := min x.exponent y.exponent
  ofProduct (x.aligned shared + y.aligned shared) shared

/-- The exact order. -/
def atMost (x y : Extended) : Bool :=
  let shared := min x.exponent y.exponent
  x.aligned shared ≤ y.aligned shared

/-- The integer part. -/
def floor (x : Extended) : Nat := x.significand * twoTo x.exponent.toNat / twoTo (-x.exponent).toNat

/-- What is left without the integer part. It needs no rounding. -/
def fraction (x : Extended) : Extended :=
  let shared := min x.exponent 0
  ⟨x.aligned shared - x.floor * twoTo (-shared).toNat, shared⟩

/-! ### Powers of ten -/

/-- Multiplies a result by `base ^ power`, squaring the base and rounding on the way. -/
def scaledBy (result base : Extended) (power : Nat) : Extended :=
  if power = 0 then result
  else scaledBy (if power % 2 = 1 then result.mul base else result) (base.mul base) (power / 2)
termination_by power
decreasing_by omega

/-- A power of ten. The small ones are exact, as long as their odd part fits the bits; the larger
ones are rounded at each squaring, as they are where databases compute them. -/
def powerOfTen (power : Nat) : Extended := scaledBy 1 10 power

/-- Nothing is left to multiply with. -/
@[simp] theorem scaledBy_zero (result base : Extended) : scaledBy result base 0 = result := by
  simp [scaledBy]

@[simp] theorem powerOfTen_zero : powerOfTen 0 = 1 := by simp [powerOfTen]

end Extended

end Rollout
