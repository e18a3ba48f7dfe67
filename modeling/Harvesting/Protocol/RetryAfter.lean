import Harvesting.Time.MailDate
import Harvesting.Text.Decimal

/-!
# Times to wait

How a repository says when it wants to be asked again: in seconds, or as a date.

* `RetryAfter`, `RetryAfter.read?` — what a header says;
* `RetryAfter.wait?` — how long that is; none if it is over.
-/

namespace Harvesting

/-- When a repository wants to be asked again. -/
inductive RetryAfter where
  | seconds (n : Nat)
  | date (at_ : Instant)
  deriving Repr, DecidableEq

namespace RetryAfter

/-- A character that a header may have. -/
def isVisible (c : Char) : Bool := c = '\t' || (' ' ≤ c && c ≤ '~')

def read? (header : String) : Option RetryAfter :=
  if ¬ header.toList.all isVisible then none
  else
    let raw := Text.trimmed header
    match Text.Decimal.unsigned? (Nat.pow 2 64) raw with
    | some n => some (.seconds n)
    | none => (MailDate.read raw).toOption.map .date

def wait? (r : RetryAfter) (now : Instant) : Option Span :=
  let span? := match r with
    | .seconds n => some (Span.ofSecs n)
    | .date t => t.since? now
  span?.filter (!·.isZero)

end RetryAfter

end Harvesting
