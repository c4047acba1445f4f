/-!
# Points in time

A timestamp counts seconds from 1970-01-01T00:00:00Z and the nanoseconds within the second. A
second that is being leapt has 1 000 000 000 nanoseconds or more and is written as second 60. The
calendar is the Gregorian one, extended in both directions.

Models the library `chrono`.
-/

namespace Buildpath

/-- A point in time. -/
structure Timestamp where
  seconds : Int
  nanos : Nat
deriving DecidableEq, Repr, Inhabited

namespace Timestamp

/-! ### The calendar -/

/-- Whether the year has a 29 February. -/
def isLeapYear (year : Int) : Bool :=
  year % 4 == 0 && (year % 100 != 0 || year % 400 == 0)

/-- The number of days of a month, counted from 1. -/
def daysInMonth (year : Int) (month : Nat) : Nat :=
  if month = 2 then (if isLeapYear year then 29 else 28)
  else if month = 4 ∨ month = 6 ∨ month = 9 ∨ month = 11 then 30
  else 31

/-- Days from 1970-01-01 to a date. Years are counted from March, so that a leap day ends one. -/
def daysFromCivil (year : Int) (month day : Nat) : Int :=
  let y := if month ≤ 2 then year - 1 else year
  let era := y.fdiv 400
  let yearOfEra := y - era * 400
  let shifted : Int := if month > 2 then month - 3 else month + 9
  let dayOfYear := (153 * shifted + 2) / 5 + day - 1
  let dayOfEra := yearOfEra * 365 + yearOfEra / 4 - yearOfEra / 100 + dayOfYear
  era * 146097 + dayOfEra - 719468

/-- The year, month and day that lie `days` after 1970-01-01. -/
def civilFromDays (days : Int) : Int × Nat × Nat :=
  let z := days + 719468
  let era := z.fdiv 146097
  let dayOfEra := z - era * 146097
  let yearOfEra := (dayOfEra - dayOfEra / 1460 + dayOfEra / 36524 - dayOfEra / 146096) / 365
  let dayOfYear := dayOfEra - (365 * yearOfEra + yearOfEra / 4 - yearOfEra / 100)
  let shifted := (5 * dayOfYear + 2) / 153
  let day := dayOfYear - (153 * shifted + 2) / 5 + 1
  let month := if shifted < 10 then shifted + 3 else shifted - 9
  let year := yearOfEra + era * 400 + (if month ≤ 2 then 1 else 0)
  (year, month.toNat, day.toNat)

/-! ### The reading of a clock -/

/-- A date and a time of day, as a calendar and a clock show them. -/
structure Civil where
  year : Int
  month : Nat
  day : Nat
  hour : Nat
  minute : Nat
  second : Nat
  nanos : Nat
deriving DecidableEq, Repr

def civil (t : Timestamp) : Civil :=
  let days := t.seconds.fdiv 86400
  let ofDay := (t.seconds - days * 86400).toNat
  let (year, month, day) := civilFromDays days
  let leapt := if t.nanos ≥ 1000000000 then 1 else 0
  { year, month, day
    hour := ofDay / 3600
    minute := ofDay / 60 % 60
    second := ofDay % 60 + leapt
    nanos := t.nanos - leapt * 1000000000 }

/-- The point in time at which a clock that is `offset` seconds ahead shows this. -/
def ofCivil (c : Civil) (offset : Int) : Timestamp :=
  let leapt := if c.second = 60 then 1 else 0
  let ofDay : Int := c.hour * 3600 + c.minute * 60 + (c.second - leapt : Nat)
  { seconds := daysFromCivil c.year c.month c.day * 86400 + ofDay - offset
    nanos := c.nanos + leapt * 1000000000 }

end Timestamp

end Buildpath
