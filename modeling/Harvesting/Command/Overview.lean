import Harvesting.Command.Fault

/-!
# Overviews

What the store says of the sources, without asking any repository.

* `Overview.decisions` — what each source would do next;
* `Overview.Status`, `Overview.statuses` — how far each source got.

Both read the store source by source and end at the first fault.
-/

namespace Harvesting

namespace Overview

variable {σ : Type} [Store σ]

def decision (b : σ) (now : Instant) (s : SourceSettings) : Except CommandFault Decision := do
  let checkpoint ← (Store.load b s.key).1.mapError .store
  match s.planner.plan? checkpoint now with
  | some d => return d
  | none => throw .broken

/-- What the sources would do next, each under its key. -/
def decisions (b : σ) (now : Instant) (sources : List SourceSettings) :
    Except CommandFault (List (String × Decision)) :=
  sources.mapM fun s => do return (s.key, ← decision b now s)

/-- How far a source got. -/
structure Status where
  key : String
  checkpoint : Option Checkpoint
  tally : Tally
  deriving Repr, DecidableEq

def status (b : σ) (s : SourceSettings) : Except CommandFault Status := do
  let checkpoint ← (Store.load b s.key).1.mapError .store
  let tally ← (Store.loadTally b s.key).1.mapError .store
  return ⟨s.key, checkpoint, tally⟩

def statuses (b : σ) (sources : List SourceSettings) : Except CommandFault (List Status) :=
  sources.mapM (status b)

end Overview

end Harvesting
