import Rollout.Failure

/-!
# Moments in time

A moment is a number of seconds since the start of 1970, in the Gregorian calendar extended to all
years from 1 to 9999, without leap seconds. `timestamp` writes it in universal time.
-/

namespace Rollout.Calendar

/-- Seconds in a day. -/
def daySeconds : Int := 86400

/-- Days from 1 March of year 0 to the start of 1970. -/
def epochDays : Int := 719468

/-- Days in four hundred years. -/
def eraDays : Int := 146097

/-- A day of the calendar. Months and days count from one. -/
structure Date where
  year : Int
  month : Int
  day : Int
deriving DecidableEq, Repr

/-- The date of a day counted from the start of 1970. Years are taken to start in March, so that a
leap day is the last day of its year. -/
def dateOf (days : Int) : Date :=
  -- Count from a 1 March that starts a cycle of four hundred years.
  let shifted := days + epochDays
  let era := Int.fdiv shifted eraDays
  let dayOfEra := shifted - era * eraDays
  -- Taking the leap days away leaves years of 365 days.
  let yearOfEra := (dayOfEra - dayOfEra / 1460 + dayOfEra / 36524 - dayOfEra / 146096) / 365
  let dayOfYear := dayOfEra - (365 * yearOfEra + yearOfEra / 4 - yearOfEra / 100)
  -- From March on, five months have 153 days.
  let marchMonth := (5 * dayOfYear + 2) / 153
  let day := dayOfYear - (153 * marchMonth + 2) / 5 + 1
  let month := if marchMonth < 10 then marchMonth + 3 else marchMonth - 9
  let year := yearOfEra + era * 400
  { year := if month ≤ 2 then year + 1 else year, month, day }

/-- A number with at least two digits. -/
def two (n : Int) : String := Binary64.twoDigits n.toNat

/-- The seconds fit 64 bits. -/
def isCountable (seconds : Int) : Bool :=
  -(Numeral.twoTo 63 : Int) ≤ seconds && seconds < Numeral.twoTo 63

/-- The year, counted from 1900, fits 32 bits. -/
def isNear (date : Date) : Bool :=
  -(Numeral.twoTo 31 : Int) ≤ date.year - 1900 && date.year - 1900 < Numeral.twoTo 31

/-- The text of a moment, to the second. A year beyond the calendar is told by its lowest 32
bits. -/
def timestamp (seconds : Int) : Except Failure String :=
  let days := Int.fdiv seconds daySeconds
  let rest := seconds - days * daySeconds
  let date := dateOf days
  if !isCountable seconds then .error .momentTooWide
  else if !isNear date then .error .momentTooFar
  else if 1 ≤ date.year ∧ date.year ≤ 9999 then
    .ok <| toString date.year ++ "-" ++ two date.month ++ "-" ++ two date.day ++ "T" ++
      two (rest / 3600) ++ ":" ++ two (rest / 60 % 60) ++ ":" ++ two (rest % 60) ++ "Z"
  else .error (.yearOutOfRange (Int.bmod date.year (Numeral.twoTo 32)))

end Rollout.Calendar
