import Rollout.Binary64.Basic

/-!
# Decimal text of floating-point numbers

A number is written with the fewest digits that read back to it; of two candidates of that length
the nearer one is taken, and the even one on a tie. `Decimal.select` finds the digits by exact
arithmetic: the numbers that round to a given one form an interval, and on the grid of each length
only the two neighbours of the number itself have to be tried.

How digits are laid out is decided by a `Layout`.
-/

namespace Rollout.Binary64

open Numeral (twoTo tenTo)

/-- Digits times a power of ten. -/
structure Decimal where
  digits : Nat
  exponent : Int
deriving DecidableEq, Repr

namespace Decimal

/-- Takes zeros at the end of the digits into the exponent; `fuel` bounds their number. -/
def stripZeros : Nat → Decimal → Decimal
  | 0, decimal => decimal
  | fuel + 1, decimal =>
    if decimal.digits ≠ 0 ∧ decimal.digits % 10 = 0 then
      stripZeros fuel ⟨decimal.digits / 10, decimal.exponent + 1⟩
    else decimal

/-- Compares `digits * 10 ^ exponent` with a quotient, by cross-multiplication. -/
def compareRatio (decimal : Decimal) (numerator denominator : Nat) : Ordering :=
  compare (decimal.digits * tenTo decimal.exponent.toNat * denominator)
    (numerator * tenTo (-decimal.exponent).toNat)

end Decimal

/-- The positive reals that round to `significand * 2 ^ exponent`, over a common denominator:
the ends of the interval, the number itself, and whether the ends belong to it. -/
structure Interval where
  low : Nat
  value : Nat
  high : Nat
  denominator : Nat
  closed : Bool

namespace Interval

/-- The interval of a finite positive number. Just above a power of two the gap below is half the
gap above. -/
def around (significand : Nat) (exponent : Int) : Interval :=
  let up := twoTo (exponent - 2).toNat
  -- The least exponent is the exception: below it the gap is not halved.
  let narrow := significand = twoTo 52 ∧ exponent > leastExponent
  { low := (4 * significand - if narrow then 1 else 2) * up
    value := 4 * significand * up
    high := (4 * significand + 2) * up
    denominator := twoTo (2 - exponent).toNat
    closed := significand % 2 = 0 }

/-- Whether a decimal rounds to the number. -/
def contains (interval : Interval) (decimal : Decimal) : Bool :=
  let fromLow := decimal.compareRatio interval.low interval.denominator
  let fromHigh := decimal.compareRatio interval.high interval.denominator
  -- The ends round to the number if its significand is even.
  (fromLow == .gt || (interval.closed && fromLow == .eq)) &&
    (fromHigh == .lt || (interval.closed && fromHigh == .eq))

/-- The largest decimal with the given exponent that is not above the number. -/
def below (interval : Interval) (exponent : Int) : Nat :=
  interval.value * tenTo (-exponent).toNat / (interval.denominator * tenTo exponent.toNat)

/-- The least `k` with the number below `10 ^ k`, searched upward from an estimate. -/
def scale (interval : Interval) : Int :=
  let bits : Int := (interval.value.log2 : Int) - interval.denominator.log2
  let estimate := Int.fdiv (bits * 30103) 100000 - 1
  let fits (k : Int) : Bool :=
    (Decimal.mk 1 k).compareRatio interval.value interval.denominator == .gt
  -- The estimate is never too high, and too low by a few at most.
  ([estimate, estimate + 1, estimate + 2, estimate + 3].find? fits).getD (estimate + 4)

/-- The candidate of a grid: the neighbour of the number that rounds to it, the nearer one if both
do, the even one on a tie. -/
def candidate? (interval : Interval) (exponent : Int) : Option Decimal :=
  let floor : Decimal := ⟨interval.below exponent, exponent⟩
  let ceiling : Decimal := ⟨floor.digits + 1, exponent⟩
  match interval.contains floor, interval.contains ceiling with
  | true, false => some floor
  | false, true => some ceiling
  | false, false => none
  | true, true =>
    let middle := (Decimal.mk (2 * floor.digits + 1) exponent).compareRatio
      (2 * interval.value) interval.denominator
    match middle with
    | .gt => some floor
    | .lt => some ceiling
    | .eq => some (if floor.digits % 2 = 0 then floor else ceiling)

end Interval

/-- The shortest decimal that reads back to a finite positive number. -/
def Decimal.select (significand : Nat) (exponent : Int) : Decimal :=
  let interval := Interval.around significand exponent
  let top := interval.scale
  -- Coarse grids first, so the first candidate has the fewest digits.
  let grids := (List.range 17).map fun (n : Nat) => top - (n + 1 : Int)
  match grids.findSome? interval.candidate? with
  | some decimal => decimal.stripZeros 20
  -- Seventeen digits always suffice, so this is not reached.
  | none => ⟨interval.below (top - 17), top - 17⟩

/-! ### Layout -/

/-- How the text of a number is laid out. Which digits it has is decided elsewhere, so one layout
may serve for several choices of them. -/
structure Layout where
  plainFrom : Int
  /-- … as long as they are below this one. -/
  plainBelow : Int
  pointBeforeExponent : Bool
  signedZero : Bool
  nan : String
  infinity : String

/-- A natural number with at least two digits. -/
def twoDigits (n : Nat) : String := if n < 10 then s!"0{n}" else toString n

/-- The unsigned text of a decimal. -/
def Layout.decimal (layout : Layout) (decimal : Decimal) : String :=
  let digits := toString decimal.digits
  let count := digits.length
  let leading : Int := decimal.exponent + count - 1
  -- The place of the leading digit decides between the two ways of writing.
  if layout.plainFrom ≤ leading ∧ leading < layout.plainBelow then
    if 0 ≤ decimal.exponent then
      digits ++ String.ofList (List.replicate decimal.exponent.toNat '0') ++ ".0"
    else if 0 ≤ leading then
      let whole := (leading + 1).toNat
      String.ofList (digits.toList.take whole) ++ "." ++ String.ofList (digits.toList.drop whole)
    else
      "0." ++ String.ofList (List.replicate (-leading - 1).toNat '0') ++ digits
  else
    let fraction := String.ofList (digits.toList.drop 1)
    let point :=
      if fraction.isEmpty then (if layout.pointBeforeExponent then ".0" else "")
      else "." ++ fraction
    let sign := if leading < 0 then "-" else "+"
    String.ofList (digits.toList.take 1) ++ point ++ "e" ++ sign ++ twoDigits leading.natAbs

/-- The text of a number, given how its digits are chosen. -/
def Layout.text (layout : Layout) (choose : Nat → Int → Decimal) : Binary64 → String
  | .nan => layout.nan
  | .infinite negative => (if negative then "-" else "") ++ layout.infinity
  | .finite negative significand exponent =>
    if significand = 0 then (if negative && layout.signedZero then "-0.0" else "0.0")
    else
      (if negative then "-" else "") ++ layout.decimal (choose significand exponent)

/-- Numbers are shown with the fewest digits, positionally from a ten-thousandth up to sixteen
digits before the point. -/
def shownLayout : Layout where
  plainFrom := -4
  plainBelow := 16
  pointBeforeExponent := false
  signedZero := true
  nan := "nan"
  infinity := "inf"

/-- In stored documents the words are spelled out. -/
def documentLayout : Layout :=
  { shownLayout with nan := "NaN", infinity := "Infinity" }

/-- The text that a number is shown with. -/
def shown (number : Binary64) : String := shownLayout.text Decimal.select number

/-- The text of a number in a stored document. -/
def documentText (number : Binary64) : String := documentLayout.text Decimal.select number

end Rollout.Binary64
