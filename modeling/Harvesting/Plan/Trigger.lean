import Harvesting.Settings.Source

/-!
# Triggers

When the next cycle of a source starts.

* `Trigger` — after an interval or on a schedule; `Trigger.of` — the trigger of a source;
* `Trigger.delay?` — how long to wait for it; none when a schedule is over.
-/

namespace Harvesting

/-- When the next cycle of a source starts. -/
inductive Trigger where
  | interval (every : Span)
  | schedule (s : Schedule)
  deriving Repr, DecidableEq

namespace Trigger

/-- The trigger of a source: its schedule, or else its interval. -/
def of (s : SourceSettings) : Except SettingsFault Trigger := do
  match ← s.schedule? with
  | some s => return .schedule s
  | none => return .interval s.poll

/-- The trigger waits the same time after every cycle. -/
def isInterval : Trigger → Bool
  | .interval _ => true
  | .schedule _ => false

/-- How long to wait for the next cycle. -/
def delay? (t : Trigger) (now : Instant) : Option Span :=
  match t with
  | .interval every => some every
  | .schedule s => (s.next? now).map fun at_ => (at_.since? now).getD .zero

end Trigger

end Harvesting
