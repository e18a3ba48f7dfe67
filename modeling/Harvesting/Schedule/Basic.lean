import Harvesting.Time.Instant

/-!
# Schedules

Times of day and days that repeat, each unit of time limited to some of its values.

* `Schedule` — the values of each unit, in ascending order;
* `Schedule.Fires` — the instants of a schedule;
* `Schedule.next?` — the first of them after an instant.

A day has to satisfy the days of the month and the days of the week. Years run from 1970 to 2100.
-/

namespace Harvesting

/-- The values of the units of time at which something happens. -/
structure Schedule where
  seconds : List Nat
  minutes : List Nat
  hours : List Nat
  days : List Nat
  months : List Nat
  /-- From 1 for Sunday to 7 for Saturday. -/
  weekdays : List Nat
  years : List Nat
  deriving Repr, DecidableEq

namespace Schedule

def HasDate (s : Schedule) (d : Date) : Prop :=
  (0 ≤ d.year ∧ d.year.toNat ∈ s.years) ∧ d.month ∈ s.months ∧ d.day ∈ s.days ∧
    Date.weekday d.toDays + 1 ∈ s.weekdays ∧ d.Valid

instance (s : Schedule) (d : Date) : Decidable (s.HasDate d) := inferInstanceAs (Decidable (_ ∧ _))

/-- The second of the day is one of the schedule. -/
def HasTime (s : Schedule) (sec : Nat) : Prop :=
  sec / 3600 ∈ s.hours ∧ sec / 60 % 60 ∈ s.minutes ∧ sec % 60 ∈ s.seconds

/-- The instants of the schedule are whole seconds of its days. -/
def Fires (s : Schedule) (t : Instant) : Prop :=
  s.HasDate (Date.ofDays t.day) ∧ s.HasTime t.secOfDay.toNat ∧ t.nanos = 0

/-- The first second of the day, not before second `least`, that the schedule has. -/
def timeFrom? (s : Schedule) (least : Nat) : Option Nat :=
  s.hours.findSome? fun h =>
    if h < least / 3600 then none
    else s.minutes.findSome? fun m =>
      if h * 60 + m < least / 60 then none
      else s.seconds.findSome? fun sec =>
        let time := h * 3600 + m * 60 + sec
        if time < least then none else some time

/-- The first instant of a day of the schedule, not before the second `least` of the day `first`. -/
def onDate? (s : Schedule) (first : Int) (least : Nat) (d : Date) : Option Instant :=
  let day := d.toDays
  if ¬ s.HasDate d ∨ day < first then none
  else (s.timeFrom? (if day = first then least else 0)).map fun (time : Nat) =>
    ⟨day * Instant.secsPerDay + time, 0⟩

/-- The first instant of the schedule that is not before the whole second of `t`. -/
def from? (s : Schedule) (t : Instant) : Option Instant :=
  let first := Date.ofDays t.day
  if first.year < 0 then none
  else s.years.findSome? fun (y : Nat) =>
    if (y : Int) < first.year then none
    else s.months.findSome? fun m =>
      if (y : Int) = first.year ∧ m < first.month then none
      else s.days.findSome? fun d => s.onDate? t.day t.secOfDay.toNat ⟨y, m, d⟩

/-- The first instant of the schedule that is at least a second after `now`, as far as whole seconds go. -/
def next? (s : Schedule) (now : Instant) : Option Instant := s.from? (now.shift Instant.nanosPerSec)

end Schedule

end Harvesting
