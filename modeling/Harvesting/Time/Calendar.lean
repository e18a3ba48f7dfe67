/-!
# Calendar

The proleptic Gregorian calendar, with days counted from 1970-01-01.

* `Date` — year, month, day of month; `Date.Valid` — the month exists and has that day;
* `Date.toDays` — the number of days from 1970-01-01;
* `Date.ofDays` — the date of a day number;
* `Date.minDays`, `Date.maxDays` — the first and last day that instants can name.

Years are counted in eras of 400 years (146097 days) that start in March, so that the leap day is the
last day of a year and a month's first day is a linear function of its number.
-/

namespace Harvesting

/-- A day of the proleptic Gregorian calendar. Year 0 is the year before year 1. -/
structure Date where
  year : Int
  month : Nat
  day : Nat
  deriving Repr, DecidableEq

namespace Date

/-- Every fourth year is a leap year, except the centuries that 400 does not divide. -/
def isLeap (year : Int) : Bool :=
  year % 4 = 0 && (year % 100 ≠ 0 || year % 400 = 0)

/-- Number of days of a month; none for a number that names no month. -/
def daysInMonth (year : Int) : Nat → Nat
  | 1 | 3 | 5 | 7 | 8 | 10 | 12 => 31
  | 4 | 6 | 9 | 11 => 30
  | 2 => if isLeap year then 29 else 28
  | _ => 0

/-- The month exists and has that day. -/
def Valid (d : Date) : Prop := 1 ≤ d.day ∧ d.day ≤ daysInMonth d.year d.month

instance (d : Date) : Decidable d.Valid := inferInstanceAs (Decidable (_ ∧ _))

/-- Days from 1970-01-01, negative before it. -/
def toDays (d : Date) : Int :=
  let y := if d.month ≤ 2 then d.year - 1 else d.year
  let shifted : Int := (d.month + 9) % 12
  let era := y / 400
  let yearOfEra := y - era * 400
  let dayOfYear := (153 * shifted + 2) / 5 + d.day - 1
  let dayOfEra := yearOfEra * 365 + yearOfEra / 4 - yearOfEra / 100 + dayOfYear
  era * 146097 + dayOfEra - 719468

def ofDays (days : Int) : Date :=
  let z := days + 719468
  let era := z / 146097
  let dayOfEra := z - era * 146097
  let yearOfEra := (dayOfEra - dayOfEra / 1460 + dayOfEra / 36524 - dayOfEra / 146096) / 365
  let dayOfYear := dayOfEra - (365 * yearOfEra + yearOfEra / 4 - yearOfEra / 100)
  let shifted := (5 * dayOfYear + 2) / 153
  let day := dayOfYear - (153 * shifted + 2) / 5 + 1
  let month := if shifted < 10 then shifted + 3 else shifted - 9
  let year := yearOfEra + era * 400
  ⟨if month ≤ 2 then year + 1 else year, month.toNat, day.toNat⟩

/-- The first day that an instant can name, -262143-01-01. -/
def minDays : Int := toDays ⟨-262143, 1, 1⟩

/-- The last day that an instant can name, +262142-12-31. -/
def maxDays : Int := toDays ⟨262142, 12, 31⟩

def weekday (days : Int) : Nat := ((days + 4) % 7).toNat

end Date

end Harvesting
