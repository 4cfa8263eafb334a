import Workgraph.Text.Digits
/-!
# Timestamps

Points in time to the nanosecond, counted from the beginning of 1970 in universal time, and their
written form as a calendar date and a time of day. A leap second is part of the second before it.

## Main definitions

- `Timestamp`: a point in time
- `dayNumber`, `civilDate`: dates of the Gregorian calendar as counts of days, and back
- `Timestamp.text`: the written form
-/

namespace Workgraph

open Text (padded)

/-- A point in time: seconds since the beginning of 1970, and nanoseconds within the second. The
nanoseconds of a leap second are counted on from those of the second before it. -/
structure Timestamp where
  seconds : Int
  nanos : Nat
deriving DecidableEq

/-- A date of the Gregorian calendar. -/
structure Date where
  year : Int
  month : Nat
  day : Nat
deriving DecidableEq

/-- The number of days from the beginning of 1970 to a date. The year is taken to begin in March, so
that the leap day is its last one. -/
def dayNumber (d : Date) : Int :=
  let year := if d.month ≤ 2 then d.year - 1 else d.year
  let era := Int.fdiv year 400
  let yearOfEra := year - era * 400
  let month : Int := if d.month ≤ 2 then d.month + 9 else (d.month : Int) - 3
  let dayOfYear := Int.fdiv (153 * month + 2) 5 + d.day - 1
  let dayOfEra := yearOfEra * 365 + Int.fdiv yearOfEra 4 - Int.fdiv yearOfEra 100 + dayOfYear
  era * 146097 + dayOfEra - 719468

/-- The date a number of days after the beginning of 1970. -/
def civilDate (days : Int) : Date :=
  let z := days + 719468
  let era := Int.fdiv z 146097
  let dayOfEra := z - era * 146097
  let yearOfEra :=
    Int.fdiv (dayOfEra - Int.fdiv dayOfEra 1460 + Int.fdiv dayOfEra 36524
      - Int.fdiv dayOfEra 146096) 365
  let dayOfYear := dayOfEra - (365 * yearOfEra + Int.fdiv yearOfEra 4 - Int.fdiv yearOfEra 100)
  let month := Int.fdiv (5 * dayOfYear + 2) 153
  let day := dayOfYear - Int.fdiv (153 * month + 2) 5 + 1
  let civilMonth := if month < 10 then month + 3 else month - 9
  let year := yearOfEra + era * 400 + (if civilMonth ≤ 2 then 1 else 0)
  ⟨year, civilMonth.toNat, day.toNat⟩

/-- Whether a year has a leap day. -/
def isLeapYear (year : Int) : Bool :=
  Int.fmod year 4 == 0 && (Int.fmod year 100 != 0 || Int.fmod year 400 == 0)

/-- The number of days of a month. -/
def daysInMonth (year : Int) (month : Nat) : Nat :=
  if month == 2 then (if isLeapYear year then 29 else 28)
  else if month == 4 || month == 6 || month == 9 || month == 11 then 30
  else 31

namespace Date

/-- Whether a date exists. -/
def isValid (d : Date) : Bool :=
  1 ≤ d.month && d.month ≤ 12 && 1 ≤ d.day && d.day ≤ daysInMonth d.year d.month

/-- The written form of a year: four digits, and a sign where they do not suffice. -/
def yearText (year : Int) : String :=
  if 0 ≤ year && year ≤ 9999 then padded 4 year.toNat
  else (if year < 0 then "-" else "+") ++ padded 4 year.natAbs

def text (d : Date) : String := yearText d.year ++ "-" ++ padded 2 d.month ++ "-" ++ padded 2 d.day

end Date

/-- One second in nanoseconds. -/
def nanosPerSecond : Nat := 1000000000

/-- The written form of a fraction of a second: as few groups of three digits as keep its value. -/
def fractionText (nanos : Nat) : String :=
  if nanos == 0 then ""
  else if nanos % 1000000 == 0 then "." ++ padded 3 (nanos / 1000000)
  else if nanos % 1000 == 0 then "." ++ padded 6 (nanos / 1000)
  else "." ++ padded 9 nanos

namespace Timestamp

/-- The point from which time is counted. -/
def epoch : Timestamp := ⟨0, 0⟩

/-- The written form without the offset from universal time. A leap second has the number 60. -/
def localText (t : Timestamp) : String :=
  let days := Int.fdiv t.seconds 86400
  let ofDay := (t.seconds - days * 86400).toNat
  let leap := nanosPerSecond ≤ t.nanos
  let second := ofDay % 60 + (if leap then 1 else 0)
  let nanos := if leap then t.nanos - nanosPerSecond else t.nanos
  (civilDate days).text ++ "T" ++ padded 2 (ofDay / 3600) ++ ":" ++ padded 2 (ofDay / 60 % 60) ++
    ":" ++ padded 2 second ++ fractionText nanos

def text (t : Timestamp) : String := t.localText ++ "Z"

/-- The written form in universal time with a numeric offset. -/
def offsetText (t : Timestamp) : String := t.localText ++ "+00:00"

end Timestamp

end Workgraph
