import Harvesting.Plan.Decision

/-!
# Planning

From the last checkpoint and the time of day to the next decision. Windows follow each other without
a gap and keep their width; a window is entered only when it has been closed for a while, because
repositories stamp records with clocks of their own.

* `Planner` — the configured window and the time a window must have been closed;
* `Planner.plan?` — the decision. It is absent when a date of it cannot be named.
-/

namespace Harvesting

/-- The rules by which a source is planned. -/
structure Planner where
  /-- Where the harvest starts. -/
  window : Window
  /-- How long a window must have been closed, in nanoseconds. -/
  skew : Int
  deriving Repr, DecidableEq

namespace Planner

/-- The usual time that a window must have been closed, in seconds. -/
def defaultSkew : Nat := 15

/-- The most seconds that a skew can have. -/
def maxSkew : Nat := 9223372036854775

/-- So many seconds in nanoseconds, as far as they can be a skew. -/
def skewOf? (secs : Int) : Option Int :=
  if -(maxSkew : Int) ≤ secs ∧ secs ≤ maxSkew then some (secs * 1000000000) else none

/--
The decision after a finished window `[lower, upper]`: the window of the same width that starts where
it ended, once that one is closed for long enough; the same window again if it has no width.
-/
def next? (p : Planner) (lower upper now : Instant) : Option Decision :=
  let width := upper.diff lower
  if width ≤ 0 then some (.again ⟨some lower, some upper⟩)
  else do
    let nextUpper ← upper.shift? width
    let horizon ← now.shift? (-p.skew)
    if nextUpper ≤ horizon then return .advance upper nextUpper else return .wait

/--
The next decision. Without a checkpoint it is the configured window; a failed page repeats its window
from the start; a token is followed; a finished window leads to the next one, or is repeated when it
is open.
-/
def plan? (p : Planner) (checkpoint : Option Checkpoint) (now : Instant) : Option Decision :=
  match checkpoint with
  | none => some (.first p.window)
  | some c =>
    if ¬ c.isClean then some (.again ⟨c.lower, c.upper⟩)
    else match c.token, c.lower, c.upper with
      | some token, lower, upper => some (.resume token ⟨lower, upper⟩)
      | none, some lower, some upper => p.next? lower upper now
      | none, lower, upper => some (.again ⟨lower, upper⟩)

end Planner

end Harvesting
