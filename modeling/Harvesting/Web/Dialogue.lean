import Harvesting.Web.Exchange

/-!
# Dialogues

Calls made where their replies are not at hand. What makes the calls is run with the replies that are
known; when they run out, the next call is noted, and once it has its reply the whole is run again.

* `Dialogue` — the replies not yet used, and the first call without one;
* `Dialogue.answer` — the reply to a call;
* `Dialogue.settle` — what comes of it once every call has its reply.
-/

namespace Harvesting

/-- Replies not yet used, and the first call for which there was none. -/
structure Dialogue where
  replies : List Reply
  wanted : Option Call

namespace Dialogue

def start (known : List Reply) : Dialogue := ⟨known, none⟩

/-- The reply to a call. A call without one gets a reply that is thrown away with all that follows. -/
def answer (d : Dialogue) (c : Call) : Reply × Dialogue :=
  match d.replies with
  | r :: replies => (r, { d with replies := replies })
  | [] => (.dropped, { d with wanted := d.wanted <|> some c })

/-- Runs `f` until every call has its reply, for at most so many calls; `send` gets the replies. -/
def settle {m : Type → Type} [Monad m] {α : Type} (send : Call → m Reply)
    (f : Dialogue → α × Dialogue) (known : List Reply) : Nat → m α
  | 0 => return (f (start known)).1
  | fuel + 1 =>
    match f (start known) with
    | (a, ⟨_, none⟩) => return a
    | (_, ⟨_, some c⟩) => do settle send f (known ++ [← send c]) fuel

end Dialogue

end Harvesting
