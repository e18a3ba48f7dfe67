import Harvesting.Cycle.Basic
import Harvesting.Plan.Trigger

/-!
# Runners

Cycles of one source, once or on a trigger until the harvest is cancelled, and then the end of its sink.
An interval starts with a cycle, a schedule with its first time.

* `Summary` — the sums over the cycles of a source;
* `CycleSettings.of`, `RunnerSettings` — how a source is run;
* `Runner`, `Runner.course` — where a runner is, and its stages.
-/

namespace Harvesting

/-- The sums over the cycles of a source. -/
structure Summary where
  source : String
  /-- Cycles that had something to do. -/
  cycles : Nat
  failedCycles : Nat
  records : Nat
  documents : Nat
  deriving Repr, DecidableEq

def Summary.empty (source : String) : Summary := ⟨source, 0, 0, 0, 0⟩

/-- The sums with one more cycle. -/
def Summary.absorb (s : Summary) (r : Report) : Summary :=
  { s with
    cycles := s.cycles + (if r.decision.any fun d => ¬ d.isWait then 1 else 0)
    failedCycles := s.failedCycles + (if r.failed then 1 else 0)
    records := s.records + r.records
    documents := s.documents + r.documents }

/-- What the cycles of a source share, as its settings say. -/
def CycleSettings.of (s : SourceSettings) : CycleSettings :=
  ⟨s.key, s.template, s.planner, s.timeout, s.cooldown, Transformer.documents ⟨s.index, s.docType⟩⟩

/-- How a source is run. -/
structure RunnerSettings where
  cycle : CycleSettings
  trigger : Trigger
  /-- The runner stops after one cycle. -/
  once : Bool

/-- Where a runner is. -/
inductive Runner where
  | opening
  | cycling (cycle : Cycle × Report)
  | closing
  | stopped
  /-- A cycle broke down; the sink stays open. -/
  | broken

namespace Runner

open Program (perform)

/-- Waits for the next cycle; a runner that is not to have one closes. -/
def rest (s : RunnerSettings) (waited : Bool) : Program Runner := do
  if waited ∧ s.trigger.isInterval then
    if ← perform .cancelled then return .closing else return .cycling Cycle.start
  else match s.trigger.delay? (← perform .wallClock) with
    | none => return .closing
    | some delay => if ← perform (.pause delay) then return .cycling Cycle.start else return .closing

/-- Goes on after a cycle. -/
def next (s : RunnerSettings) (r : Report) : Program Runner := do
  if s.once ∨ r.cancelled then return .closing
  else if ← perform .cancelled then return .closing
  else rest s r.waited

def course (s : RunnerSettings) : Course (Runner × Summary)
  | (.opening, sum) => some do
    if s.once ∨ s.trigger.isInterval then return (.cycling Cycle.start, sum)
    else return (← rest s false, sum)
  | (.cycling (cycle, report), sum) =>
    match cycle, Cycle.course s.cycle (cycle, report) with
    | _, some stage => some do return (.cycling (← stage), sum)
    | .broken, none => some do return (.broken, sum)
    | _, none => some do
      let sum := sum.absorb report
      return (← next s report, sum)
  | (.closing, sum) => some do
    let _ ← perform .close
    return (.stopped, sum)
  | (.stopped, _) => none
  | (.broken, _) => none

/-- A runner before its first stage. -/
def start (s : RunnerSettings) : Runner × Summary := (.opening, .empty s.cycle.key)

end Runner

end Harvesting
