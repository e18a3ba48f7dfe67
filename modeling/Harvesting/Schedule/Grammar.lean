import Harvesting.Schedule.Basic
import Harvesting.Text.Decimal
import Harvesting.Text.Reader

/-!
# Schedules as text

A schedule is written as six or seven fields — second, minute, hour, day of the month, month, day of
the week, and possibly year — or as one of the names `@yearly`, `@monthly`, `@weekly`, `@daily`,
`@hourly`. A field is a list of values, ranges `a-b`, `*` for every value, each with an optional step
`/n`; months and days of the week may be named.

* `Item`, `Field` — what is written; `Field.values?` — the values that it means for a unit;
* `Schedule.parse?` — the schedule of a text.

Numbers and names may have blanks around them, so fields need none between them where that is clear.
-/

namespace Harvesting.Schedule

/-! ### What is written -/

/-- A set of values as it is written. -/
inductive Range where
  | every
  | point (n : Nat)
  | span (lo hi : Nat)
  | named (lo hi : List Char)
  deriving Repr, DecidableEq

/-- One item of a field. -/
inductive Item where
  | range (r : Range)
  /-- Every so manieth value of a range; a point stands for the values from it on. -/
  | step (r : Range) (n : Nat)
  | name (n : List Char)
  deriving Repr, DecidableEq

abbrev Field := List Item

/-! ### What is meant -/

/-- The values of one unit and their names. -/
structure TimeUnit where
  least : Nat
  greatest : Nat
  names : List (List String)

namespace TimeUnit

def second : TimeUnit := ⟨0, 59, []⟩
def minute : TimeUnit := ⟨0, 59, []⟩
def hour : TimeUnit := ⟨0, 23, []⟩
def day : TimeUnit := ⟨1, 31, []⟩
def month : TimeUnit := ⟨1, 12, [
  ["jan", "january"], ["feb", "february"], ["mar", "march"], ["apr", "april"], ["may"],
  ["jun", "june"], ["jul", "july"], ["aug", "august"], ["sep", "september"], ["oct", "october"],
  ["nov", "november"], ["dec", "december"]]⟩
def weekday : TimeUnit := ⟨1, 7, [
  ["sun", "sunday"], ["mon", "monday"], ["tue", "tues", "tuesday"], ["wed", "wednesday"],
  ["thu", "thurs", "thursday"], ["fri", "friday"], ["sat", "saturday"]]⟩
def year : TimeUnit := ⟨1970, 2100, []⟩

/-- The values from `lo` to `hi`, none if `hi` is below `lo`. -/
def between (lo hi : Nat) : List Nat := (List.range (hi + 1 - lo)).map (lo + ·)

def all (u : TimeUnit) : List Nat := between u.least u.greatest

def holds (u : TimeUnit) (n : Nat) : Bool := u.least ≤ n && n ≤ u.greatest

/-- The value of a name in any letter case. -/
def ofName? (u : TimeUnit) (name : List Char) : Option Nat :=
  let lower := String.ofList (name.map Char.toLower)
  (u.names.findIdx? (·.contains lower)).map (· + u.least)

/-- The values of a range that is not empty. -/
def span? (u : TimeUnit) (lo hi : Nat) : Option (List Nat) :=
  if u.holds lo ∧ u.holds hi ∧ lo ≤ hi then some (between lo hi) else none

/-- The values of a range; a point is looked at later. -/
def values? (u : TimeUnit) : Range → Option (List Nat)
  | .every => some u.all
  | .point n => some [n]
  | .span lo hi => u.span? lo hi
  | .named lo hi => do u.span? (← u.ofName? lo) (← u.ofName? hi)

def everyNth (n : Nat) (values : List Nat) : List Nat :=
  (values.zipIdx.filter fun (_, i) => i % n = 0).map (·.1)

/-- The values that steps are taken through; a point stands for the values from it on. -/
def stepped? (u : TimeUnit) : Range → Option (List Nat)
  | .point n => if u.holds n then some (between n u.greatest) else none
  | r => u.values? r

/-- The values of an item. A step is at least one and at most the greatest value of the unit. -/
def itemValues? (u : TimeUnit) : Item → Option (List Nat)
  | .range r => u.values? r
  | .step r k => if 1 ≤ k ∧ k ≤ u.greatest then (u.stepped? r).map (everyNth k) else none
  | .name n => (u.ofName? n).map ([·])

/-- The values of a field in ascending order; none if one of them is no value of the unit. -/
def fieldValues? (u : TimeUnit) (f : Field) : Option (List Nat) := do
  let values := (← f.mapM u.itemValues?).flatten
  if values.all u.holds then some (u.all.filter (values.contains ·)) else none

end TimeUnit

/-! ### Reading -/

open Text Reader

def isGap (c : Char) : Bool := c = ' ' || c = '\t' || c = '\r' || c = '\n'

def gap : Reader Unit := do
  let _ ← run isGap

/-- At least one character of a class, with blanks around them. -/
def word (p : Char → Bool) : Reader (List Char) := do
  gap
  let cs ← nonempty p
  gap
  return cs

def number : Reader Nat := do
  let ds ← word Char.isDigit
  require (Decimal.numeral ds < Nat.pow 2 32)
  return Decimal.numeral ds

def name : Reader (List Char) := word Char.isAlpha

/-- Two values with a character between them. -/
def pair {α β γ : Type} (f : α → β → γ) (first : Reader α) (c : Char) (second : Reader β) : Reader γ := do
  let a ← first
  char c
  return f a (← second)

/-- A range. Where `anyDay` holds, a question mark stands for every value. -/
def range (anyDay : Bool) : Reader Range :=
  let every (c : Char) : Reader Range := do
    char c
    return .every
  oneOf <| (if anyDay then [every '?'] else []) ++
    [every '*', pair .span number '-' number, .point <$> number, pair .named name '-' name]

def item (anyDay : Bool) : Reader Item :=
  oneOf [pair .step (range anyDay) '/' number, .range <$> range anyDay, .name <$> name]

def field (anyDay : Bool) : Reader Field := do
  let items ← separated (char ',') (item anyDay)
  gap
  return items

def unitField (u : TimeUnit) (anyDay : Bool) : Reader (List Nat) := do
  ofOption (u.fieldValues? (← field anyDay))

def fields : Reader Schedule := do
  let seconds ← unitField .second false
  let minutes ← unitField .minute false
  let hours ← unitField .hour false
  let days ← unitField .day true
  let months ← unitField .month false
  let weekdays ← unitField .weekday true
  let years ← maybe (unitField .year false)
  return ⟨seconds, minutes, hours, days, months, weekdays, years.getD TimeUnit.year.all⟩

def always : Schedule := ⟨TimeUnit.second.all, TimeUnit.minute.all, TimeUnit.hour.all, TimeUnit.day.all,
  TimeUnit.month.all, TimeUnit.weekday.all, TimeUnit.year.all⟩

def ofName? (name : String) : Option Schedule :=
  let hourly := { always with seconds := [0], minutes := [0] }
  let daily := { hourly with hours := [0] }
  match name with
  | "@yearly" => some { daily with days := [1], months := [1] }
  | "@monthly" => some { daily with days := [1] }
  | "@weekly" => some { daily with weekdays := [1] }
  | "@daily" => some daily
  | "@hourly" => some hourly
  | _ => none

def parse? (s : String) : Option Schedule :=
  let cs := s.toList
  let bare := ((cs.dropWhile isGap).reverse.dropWhile isGap).reverse
  (ofName? (String.ofList bare)).or (whole? fields cs)

end Harvesting.Schedule
