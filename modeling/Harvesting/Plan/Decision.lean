import Harvesting.Progress.Checkpoint
import Harvesting.Protocol.Request

/-!
# Decisions

What the next cycle of a source does.

* `Decision` — the first window, the rest of a result set, the next window, a window once more, or
  nothing yet;
* `Decision.window`, `Decision.request?` — the window and the first request of the cycle;
* `Decision.text` — a line for people.
-/

namespace Harvesting

/-- What the next cycle does. -/
inductive Decision where
  /-- The source was never harvested: its configured window. -/
  | first (window : Window)
  /-- A result set goes on at a token. -/
  | resume (token : String) (window : Window)
  /-- The window after the last one. -/
  | advance (lower upper : Instant)
  /-- The last window once more. -/
  | again (window : Window)
  /-- The next window is not closed yet. -/
  | wait
  deriving Repr, DecidableEq

namespace Decision

def window : Decision → Window
  | .first w => w
  | .resume _ w => w
  | .advance a b => ⟨some a, some b⟩
  | .again w => w
  | .wait => ⟨none, none⟩

/-- The token at which the cycle starts. -/
def token : Decision → Option String
  | .resume t _ => some t
  | _ => none

def isWait : Decision → Bool
  | .wait => true
  | _ => false

/-- The first request of the cycle; waiting makes none. -/
def request? (d : Decision) (template : Request) : Option Request :=
  match d with
  | .wait => none
  | d => some { template with window := d.window, token := d.token }

def text : Decision → String
  | .first w => "first " ++ w.text
  | .resume t _ => "resume " ++ t
  | .advance a b => "advance " ++ Window.text ⟨some a, some b⟩
  | .again w => "repeat " ++ w.text
  | .wait => "wait"

end Decision

end Harvesting
