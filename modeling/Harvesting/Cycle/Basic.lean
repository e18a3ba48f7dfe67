import Harvesting.Cycle.Program
import Harvesting.Plan.Planner

/-!
# Cycles

One cycle of a source: plan, then page until the result set ends, a page fails or the harvest is
cancelled.

A page is written before it is remembered: the sink is flushed first and the checkpoint is saved
second, so a checkpoint never tells of documents that the sink has not acknowledged. A harvest that stops
between the two reads the page again, which does no harm, since documents are kept by their ids.

* `CycleSettings` — what the cycles of a source share;
* `Report` — what a cycle did;
* `Cycle`, `Cycle.course` — where a cycle is, and its stages: `Cycle.plan` and `Cycle.page`.
-/

namespace Harvesting

/-- What the cycles of a source share. -/
structure CycleSettings where
  /-- The name of the source in the store. -/
  key : String
  /-- The parameters that all requests share. -/
  template : Request
  planner : Planner
  /-- The time for one request. -/
  timeout : Span
  /-- How long to leave a store alone that could not be read. -/
  cooldown : Span
  /-- The documents of a record, or why it has none. -/
  documents : Record → Except RecordFault (List Document)

/-- What a cycle did. -/
structure Report where
  /-- What was planned; none if the cycle was cancelled before. -/
  decision : Option Decision
  /-- Requests made. -/
  pages : Nat
  records : Nat
  /-- Documents handed to the sink. -/
  documents : Nat
  /-- Records that have no documents for a fault. -/
  skipped : Nat
  /-- The status of the last page that was dealt with. -/
  lastStatus : Option Int
  error : Option String
  failed : Bool
  cancelled : Bool
  /-- The repository made the cycle wait, so the next one need not. -/
  waited : Bool
  deriving Repr, DecidableEq

/-- The report of a cycle that has not begun. -/
def Report.empty : Report := ⟨none, 0, 0, 0, 0, none, none, false, false, false⟩

def Report.cancel (r : Report) : Report := { r with cancelled := true }

/-- What came of the requests for one page. -/
structure Attempt where
  status : Int
  error : Option String
  /-- Where the result set goes on; none at its end or after a fault. -/
  token : Option String
  deriving Repr, DecidableEq

/-- Where a cycle is. -/
inductive Cycle where
  | planning
  | paging (tally : Tally) (request : Request)
  | ended
  /-- The planner had to name a date that no calendar has; there is nothing to report. -/
  | broken

namespace Cycle

open Program (perform)

/-! ### Planning -/

/-- Enters into the tally that a cycle begins. A tally that cannot be read starts anew. -/
def begin (s : CycleSettings) : Program Tally := do
  let kept := match ← perform (.loadTally s.key) with
    | .ok t => t
    | .error _ => Tally.empty
  let tally := kept.start (← perform .clock)
  let _ ← perform (.saveTally s.key tally)
  return tally

/-- Enters into the tally that the cycle ends. -/
def finish (s : CycleSettings) (tally : Tally) (report : Report) : Program (Cycle × Report) := do
  let now ← perform .clock
  let _ ← perform (.saveTally s.key (tally.finish now report.records))
  return (.ended, report)

/--
Plans the cycle from the stored checkpoint. A store that cannot be read is left alone for a while, and
planning starts again.
-/
def plan (s : CycleSettings) (report : Report) : Program (Cycle × Report) := do
  if ← perform .cancelled then return (.ended, report.cancel)
  match ← perform (.load s.key) with
  | .error _ =>
    if ← perform (.pause s.cooldown) then return (.planning, report)
    else return (.ended, report.cancel)
  | .ok checkpoint =>
    match s.planner.plan? checkpoint (← perform .clock) with
    | none => return (.broken, report)
    | some decision =>
      let report := { report with decision := some decision }
      match decision.request? s.template with
      | none => return (.ended, report)
      | some request => return (.paging (← begin s) request, report)

/-! ### Paging -/

/-- Hands documents to the sink, up to the first one that it refuses. -/
def deliver : List Document → Report → Program (Except SinkFault Unit × Report)
  | [], report => return (.ok (), report)
  | d :: ds, report => do
    match ← perform (.index d) with
    | .ok () => deliver ds { report with documents := report.documents + 1 }
    | .error e => return (.error e, report)

/-- Hands the documents of records to the sink, in order. A record without documents for a fault is skipped. -/
def route (documents : Record → Except RecordFault (List Document)) :
    List Record → Report → Program (Except SinkFault Unit × Report)
  | [], report => return (.ok (), report)
  | r :: rs, report => do
    let report := { report with records := report.records + 1 }
    match documents r with
    | .error _ => route documents rs { report with skipped := report.skipped + 1 }
    | .ok ds =>
      match ← deliver ds report with
      | (.ok (), report) => route documents rs report
      | (.error e, report) => return (.error e, report)

def ask (s : CycleSettings) (request : Request) (report : Report) :
    Program (Except SourceFault Page × Report) := do
  let answer ← perform (.request request s.timeout)
  return (answer, { report with pages := report.pages + 1 })

/-- Deals with an answer that does not ask to wait. -/
def settle (s : CycleSettings) (answer : Except SourceFault Page) (report : Report) :
    Program (Attempt × Report) := do
  match answer with
  | .error e => return (⟨Outcome.noResponse, some e.message, none⟩, report)
  | .ok p =>
    match Outcome.ofPage p with
    | .failed status e => return (⟨status, some e, none⟩, report)
    | .throttled _ => return (⟨p.status, some "repository still throttling after retry", none⟩, report)
    | .success =>
      match ← route s.documents p.records report with
      | (.ok (), report) => return (⟨p.status, none, p.token⟩, report)
      | (.error e, report) => return (⟨p.status, some e.message, none⟩, report)

/--
The requests for one page: a second one after the time that the repository asked for, if it did. None
when the harvest was cancelled in that time.
-/
def attempt (s : CycleSettings) (request : Request) (report : Report) :
    Program (Option Attempt × Report) := do
  let (answer, report) ← ask s request report
  match Outcome.of answer with
  | .throttled wait =>
    if ← perform (.pause wait) then
      let (answer, report) ← ask s request { report with waited := true }
      let (a, report) ← settle s answer report
      return (some a, report)
    else return (none, report)
  | _ =>
    let (a, report) ← settle s answer report
    return (some a, report)

def firstFault {ε : Type} (wording : ε → String) (e : Option String) : Except ε Unit → Option String
  | .ok () => e
  | .error f => some (e.getD (wording f))

/--
Flushes the sink and then saves a checkpoint for the page. Only a page without any fault leaves its
token there; after any other one the window is harvested again.
-/
def persist (s : CycleSettings) (request : Request) (a : Attempt) : Program Attempt := do
  let error := firstFault SinkFault.message a.error (← perform .flush)
  let token := if error.isNone ∧ a.status = Checkpoint.okStatus then a.token else none
  let checkpoint : Checkpoint := ⟨token, request.window.lower, request.window.upper, error, a.status⟩
  let error := firstFault Store.Fault.message error (← perform (.save s.key checkpoint))
  return ⟨a.status, error, token⟩

/-- One page of the cycle, unless it is cancelled. -/
def page (s : CycleSettings) (tally : Tally) (request : Request) (report : Report) :
    Program (Cycle × Report) := do
  if ← perform .cancelled then finish s tally report.cancel
  else match ← attempt s request report with
    | (none, report) => finish s tally report.cancel
    | (some a, report) =>
      let a ← persist s request a
      let report := { report with lastStatus := some a.status }
      match a.error, a.token with
      | some e, _ => finish s tally { report with error := some e, failed := true }
      | none, some token => return (.paging tally (request.continueWith token), report)
      | none, none => finish s tally report

def course (s : CycleSettings) : Course (Cycle × Report)
  | (.planning, report) => some (plan s report)
  | (.paging tally request, report) => some (page s tally request report)
  | (.ended, _) => none
  | (.broken, _) => none

/-- A cycle before its first stage. -/
def start : Cycle × Report := (.planning, .empty)

end Cycle

end Harvesting
