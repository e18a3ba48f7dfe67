import Harvesting.Time.Calendar
import Harvesting.Time.Span

/-!
# Instants

A point of universal time: seconds since 1970-01-01T00:00:00Z and nanoseconds. A leap second shares
the second before it and has nanoseconds from `10^9` on, so that instants are ordered by seconds and
then by nanoseconds.

* `Instant`, its order, `Instant.InRange` (the years -262143 to 262142);
* `Instant.diff` — signed distance in nanoseconds, counting a leap second that lies between two
  times of day;
* `Instant.shift?` — an instant so many nanoseconds later, or `none` outside the range.
-/

namespace Harvesting

/-- A point of universal time. -/
structure Instant where
  /-- Seconds since 1970-01-01T00:00:00Z. -/
  secs : Int
  /-- Nanoseconds within the second; from `10^9` on within a leap second after it. -/
  nanos : Nat
  deriving Repr, DecidableEq, Inhabited

namespace Instant

def nanosPerSec : Nat := 1000000000

def secsPerDay : Int := 86400

def ofDays (days : Int) : Instant := ⟨days * secsPerDay, 0⟩

def day (t : Instant) : Int := t.secs / secsPerDay

def secOfDay (t : Instant) : Int := t.secs % secsPerDay

def isLeap (t : Instant) : Bool := nanosPerSec ≤ t.nanos

/-- Earlier in time, or the same. -/
protected def le (a b : Instant) : Prop := a.secs < b.secs ∨ (a.secs = b.secs ∧ a.nanos ≤ b.nanos)

instance : LE Instant := ⟨Instant.le⟩

instance (a b : Instant) : Decidable (a ≤ b) := inferInstanceAs (Decidable (_ ∨ _))

/-- Strictly earlier in time. -/
protected def lt (a b : Instant) : Prop := a.secs < b.secs ∨ (a.secs = b.secs ∧ a.nanos < b.nanos)

instance : LT Instant := ⟨Instant.lt⟩

instance (a b : Instant) : Decidable (a < b) := inferInstanceAs (Decidable (_ ∨ _))

/-- The instant lies on a day that can be named. -/
def InRange (t : Instant) : Prop := Date.minDays ≤ t.day ∧ t.day ≤ Date.maxDays

instance (t : Instant) : Decidable t.InRange := inferInstanceAs (Decidable (_ ∧ _))

/-- The instant without its fraction of a second; a leap second stays one. -/
def truncate (t : Instant) : Instant := ⟨t.secs, if t.isLeap then nanosPerSec else 0⟩

/--
Nanoseconds from `b` to `a`. The days between them count 86400 seconds each. Of two times of day the
later one is a second further away when the earlier one lies in a leap second.
-/
def diff (a b : Instant) : Int :=
  let adjust : Int :=
    if b.secOfDay < a.secOfDay then (if b.isLeap then 1 else 0)
    else if a.secOfDay < b.secOfDay then (if a.isLeap then -1 else 0)
    else 0
  (a.secs - b.secs + adjust) * 1000000000 + ((a.nanos : Int) - b.nanos)

/--
The instant `n` nanoseconds later, without a bound on the years. A shift that leaves a leap second
continues from the end of it; one that stays inside keeps it.
-/
def shift (t : Instant) (n : Int) : Instant :=
  let secs := n.tdiv 1000000000
  let frac := n.tmod 1000000000
  let settle (s f : Int) : Instant :=
    let total := f + frac
    if total < 0 then ⟨s + secs - 1, (total + 1000000000).toNat⟩
    else if 1000000000 ≤ total then ⟨s + secs + 1, (total - 1000000000).toNat⟩
    else ⟨s + secs, total.toNat⟩
  if t.isLeap then
    if 0 < secs ∨ (0 < frac ∧ 2000000000 - frac ≤ t.nanos) then settle t.secs (t.nanos - 1000000000)
    else if secs < 0 then settle (t.secs + 1) (t.nanos - 1000000000)
    else ⟨t.secs, ((t.nanos : Int) + frac).toNat⟩
  else settle t.secs t.nanos

/-- The instant `n` nanoseconds later, or `none` when no day of the range has it. -/
def shift? (t : Instant) (n : Int) : Option Instant :=
  if (t.shift n).InRange then some (t.shift n) else none

/-- The instant a span of time later, or `none` outside the range. -/
def after? (t : Instant) (s : Span) : Option Instant := t.shift? s.nanosTotal

/-- The span from `b` to `a`; none when `a` is earlier. -/
def since? (a b : Instant) : Option Span :=
  if 0 ≤ a.diff b then some (Span.ofNanos (a.diff b).toNat) else none

end Instant

end Harvesting
