import Harvesting.Proofs.Cycle.Events
import Harvesting.Proofs.Cycle.Finished

/-!
# A repository that asks to wait

A page may be put off once: the repository answers with status 429 or 503 and says how long to wait, and
the same request is made again when that time has passed. What the page comes to is told by the last
answer alone; a second answer that asks to wait is a failure. A harvest that is cancelled in the meantime
leaves the sink and the checkpoint as they are.

* `Cycle.dispatch`, `Cycle.attemptOr` — an attempt that tells outcome and answer apart, with what is done if
  the two do not belong together; `Cycle.attempt_eq_attemptOr` — that is never done;
* `Cycle.InPages` — pages one after the other, behind events that touch neither repository nor sink;
* `Cycle.Remains` — what a cycle does behind its last page;
* `Cycle.waits_once` — the whole cycle.
-/

namespace Harvesting.Cycle

open Program

variable {s : CycleSettings}

/-! ## Outcomes and answers -/

/-- What is done with an outcome and an answer. -/
abbrev Handling := Outcome → Except SourceFault Page → Report → Program (Attempt × Report)

/--
What an outcome comes to, with the answer that it was made of. The handling `odd` is for an outcome that no
answer like this has.
-/
def dispatch (s : CycleSettings) (odd : Handling) : Handling
  | .success, .ok p, report => do
    match ← route s.documents p.records report with
    | (.ok (), report) => return (⟨p.status, none, p.token⟩, report)
    | (.error e, report) => return (⟨p.status, some e.message, none⟩, report)
  | .failed status e, _, report => return (⟨status, some e, none⟩, report)
  | outcome, answer, report => odd outcome answer report

/-- The outcome of a second answer, which has failed if it asks to wait again. -/
def lastOutcome (answer : Except SourceFault Page) : Outcome :=
  match Outcome.of answer, answer with
  | .throttled _, .ok p => .failed p.status "repository still throttling after retry"
  | .throttled _, .error _ => .failed Outcome.noResponse "repository still throttling after retry"
  | outcome, _ => outcome

/-- The requests for one page, where the outcome is carried along with the answer. -/
def attemptOr (s : CycleSettings) (odd : Handling) (request : Request) (report : Report) :
    Program (Option Attempt × Report) := do
  let (answer, report) ← ask s request report
  match Outcome.of answer with
  | .throttled wait =>
    if ← perform (.pause wait) then
      let (answer, report) ← ask s request { report with waited := true }
      let (a, report) ← dispatch s odd (lastOutcome answer) answer report
      return (some a, report)
    else return (none, report)
  | outcome =>
    let (a, report) ← dispatch s odd outcome answer report
    return (some a, report)

/-- The outcome of an answer belongs to it, so nothing odd is left. -/
theorem settle_eq_dispatch (odd : Handling) (answer : Except SourceFault Page) (report : Report) :
    settle s answer report = dispatch s odd (lastOutcome answer) answer report := by
  rcases answer with f | p
  · rfl
  · have hof : Outcome.of (.ok p) = Outcome.ofPage p := rfl
    cases hp : Outcome.ofPage p with
    | success =>
        have hlast : lastOutcome (.ok p) = .success := by simp only [lastOutcome, hof, hp]
        rw [hlast]
        simp only [settle, hp]
        rfl
    | throttled wait => simp only [settle, lastOutcome, hof, hp, dispatch]
    | failed status e => simp only [settle, lastOutcome, hof, hp, dispatch]

theorem attempt_eq_attemptOr (odd : Handling) (q : Request) (report : Report) :
    attempt s q report = attemptOr s odd q report := by
  rw [attempt, attemptOr]
  congr 1
  funext asked
  obtain ⟨answer, report₁⟩ := asked
  cases houtcome : Outcome.of answer with
  | throttled wait => simp only [houtcome, settle_eq_dispatch odd]
  | success =>
      have hlast : lastOutcome answer = .success := by simp only [lastOutcome, houtcome]
      simp only [houtcome, settle_eq_dispatch odd, hlast]
  | failed status e =>
      have hlast : lastOutcome answer = .failed status e := by simp only [lastOutcome, houtcome]
      simp only [houtcome, settle_eq_dispatch odd, hlast]

/-! ## A cycle page by page -/

/--
Behind events that touch neither the repository nor the sink there are pages, each with its requests; the
report counts the requests and tells whether one of them was put off.
-/
def InPages (s : CycleSettings) (report : Report) (log : List Event) (pages : List Handled) : Prop :=
  (∃ before, log = before ++ pages.flatMap (Handled.events s) ∧ ∀ ev ∈ before, ev.effect.isQuiet = true) ∧
    (∀ h ∈ pages, h.toTry.Sound s) ∧ report.pages = requests log ∧
    (report.waited = true ↔ ∃ h ∈ pages, h.putOff.isSome = true)

/-- What a cycle does behind the last page that it deals with. -/
inductive Remains (s : CycleSettings) : Cycle × Report → List Event → Prop where
  | nothing {st : Cycle × Report} : Remains s st []
  | closed {report : Report} {es : List Event} : Closes s es → Remains s (.ended, report) es
  | stopped {report : Report} {es : List Event} : Closes s es → report.cancelled = true →
      Remains s (.ended, report) (⟨.cancelled, true⟩ :: es)
  /-- The harvest is cancelled while a request is put off. -/
  | cancelled {report : Report} {es : List Event} {q : Request} {p : Page} {wait : Span} : p.Throttles wait →
      Closes s es → report.cancelled = true →
      Remains s (.ended, report)
        (⟨.cancelled, false⟩ :: ⟨.request q s.timeout, .ok p⟩ :: ⟨.pause wait, false⟩ :: es)

/-- A cycle before a stage, page by page. -/
def PagesAt (s : CycleSettings) : Cycle × Report → List Event → Prop
  | (.planning, report), log => (∀ ev ∈ log, ev.effect.isQuiet = true) ∧ report.pages = 0 ∧ report.waited = false
  | (.paging _ _, report), log => ∃ pages, InPages s report log pages
  | (stage, report), log => ∃ report' log' pages rest, log = log' ++ rest ∧ InPages s report' log' pages ∧
      Remains s (stage, report) rest ∧ report.Counts report' (requests rest) false

variable {report : Report} {log es : List Event} {pages : List Handled} {st : Cycle × Report}

theorem requests_of_quiet (h : ∀ ev ∈ es, ev.effect.isQuiet = true) : requests es = 0 := by
  apply requests_eq_zero
  rintro ⟨e, r⟩ hmem
  have hquiet := h _ hmem
  cases e with
  | request q limit => cases hquiet
  | _ => rfl

theorem Closes.requests_eq (h : Closes s es) : requests es = 0 := by
  obtain ⟨now, tally, written, rfl⟩ := h
  rfl

/-- Before the first page there are no pages. -/
theorem inPages_nil (hlog : ∀ ev ∈ log, ev.effect.isQuiet = true) (hpages : report.pages = 0)
    (hwaited : report.waited = false) : InPages s report log [] := by
  refine ⟨⟨log, by simp, hlog⟩, by simp, ?_, ?_⟩
  · rw [hpages, requests_of_quiet hlog]
  · simp [hwaited]

/-- A page that is dealt with is one more. -/
theorem InPages.snoc {report' : Report} {h : Handled} (hpages : InPages s report log pages) (hsound : h.toTry.Sound s)
    (hcounts : report'.Counts report (requests (h.events s)) h.putOff.isSome) :
    InPages s report' (log ++ h.events s) (pages ++ [h]) := by
  obtain ⟨⟨before, rfl, hquiet⟩, hsounds, hcounted, hwaited⟩ := hpages
  refine ⟨⟨before, by simp, hquiet⟩, ?_, ?_, ?_⟩
  · intro h' hmem
    rcases List.mem_append.1 hmem with hmem | hmem
    · exact hsounds h' hmem
    · cases List.mem_singleton.1 hmem
      exact hsound
  · rw [hcounts.pages, hcounted, ← requests_append]
  · rw [hcounts.waited, Bool.or_eq_true, hwaited]
    simp [or_and_right, exists_or]

/-- The quiet events of planning leave a cycle before its pages. -/
theorem pagesAt_planning (hlog : ∀ ev ∈ log, ev.effect.isQuiet = true) (hpages : report.pages = 0)
    (hwaited : report.waited = false) (h : Planning s report es st) : PagesAt s st (log ++ es) := by
  have hquiet : ∀ ev ∈ log ++ es, ev.effect.isQuiet = true := by
    intro ev hmem
    rcases List.mem_append.1 hmem with hmem | hmem
    · exact hlog ev hmem
    · exact h.quiet ev hmem
  have hnone := inPages_nil (s := s) hquiet hpages hwaited
  have hrest (st : Cycle × Report) (h : st.2.Counts report 0 false) : ∃ report' log' pages rest,
      log ++ es = log' ++ rest ∧ InPages s report' log' pages ∧ Remains s st rest ∧
        st.2.Counts report' (requests rest) false :=
    ⟨report, log ++ es, [], [], by rw [List.append_nil], hnone, .nothing, h⟩
  cases h with
  | again => exact ⟨hquiet, hpages, hwaited⟩
  | paging _ _ => exact ⟨[], hnone⟩
  | stopped => exact hrest _ (.of_eq rfl rfl)
  | cut => exact hrest _ (.of_eq rfl rfl)
  | broken _ => exact hrest _ (.of_eq rfl rfl)
  | idle _ _ => exact hrest _ (.of_eq rfl rfl)

/-- A page leaves a cycle one page further, or at its end. -/
theorem pagesAt_visits {tally : Tally} {q : Request} (hpages : InPages s report log pages)
    (h : Visits s tally q report es st) : PagesAt s st (log ++ es) := by
  cases h with
  | stopped hcloses =>
      refine ⟨report, log, pages, _, rfl, hpages, .stopped hcloses rfl, ?_⟩
      rw [requests_cons, hcloses.requests_eq]
      exact .of_eq rfl rfl
  | cancelled hthrottles hcounts hcloses =>
      refine ⟨report, log, pages, _, rfl, hpages, .cancelled hthrottles hcloses rfl, ?_⟩
      simp only [requests_cons, hcloses.requests_eq]
      exact ⟨hcounts.pages, hcounts.waited⟩
  | @last h report' es hrequest hsound hcounts hcloses =>
      refine ⟨report', log ++ h.events s, pages ++ [h], es, by simp, hpages.snoc hsound hcounts, .closed hcloses, ?_⟩
      rw [hcloses.requests_eq]
      exact .of_eq rfl rfl
  | @next h token report' hrequest hsound hcounts => exact ⟨pages ++ [h], hpages.snoc hsound hcounts⟩

theorem pagesAt_stage {st' : Cycle × Report} {p : Program (Cycle × Report)} (h : PagesAt s st log)
    (hp : course s st = some p) (hdoes : p.Does es st') : PagesAt s st' (log ++ es) := by
  rcases st with ⟨_ | ⟨tally, q⟩ | _ | _, report⟩
  · cases hp
    exact pagesAt_planning h.1 h.2.1 h.2.2 (does_planning hdoes)
  · cases hp
    obtain ⟨pages, hpages⟩ := h
    exact pagesAt_visits hpages (does_visits hdoes)
  · cases hp
  · cases hp

/-- What was done up to a stage are the pages and what remains behind them. -/
theorem PagesAt.told (h : PagesAt s st log) : ∃ report' log' pages rest, log = log' ++ rest ∧
    InPages s report' log' pages ∧ Remains s st rest ∧ st.2.Counts report' (requests rest) false := by
  rcases st with ⟨_ | ⟨tally, q⟩ | _ | _, report⟩
  · exact ⟨report, log, [], [], by simp, inPages_nil h.1 h.2.1 h.2.2, .nothing, .of_eq rfl rfl⟩
  · obtain ⟨pages, hpages⟩ := h
    exact ⟨report, log, pages, [], by simp, hpages, .nothing, .of_eq rfl rfl⟩
  · exact h
  · exact h

/--
A cycle is events that touch neither the repository nor the sink, then pages, and then its end. A page is
requested once; and once more with the same request exactly if the first answer asks to wait, by status 429
or 503 and the length of the wait, and that time passes. What the page comes to is settled by the last
answer, and a second one that asks to wait is a failure with its status. If the harvest is cancelled in that
time, the cycle ends as cancelled without a flush, a document or a checkpoint. The report counts all
requests, and tells that the cycle waited exactly if a request was made again. No outcome ever meets an
answer that it does not belong to.
-/
theorem waits_once (hrun : (course s).Leads Recorded start [] st log) :
    (∃ (before : List Event) (pages : List Handled) (rest : List Event),
      log = before ++ pages.flatMap (Handled.events s) ++ rest ∧ (∀ ev ∈ before, ev.effect.isQuiet = true) ∧
      (∀ h ∈ pages, h.toTry.Sound s) ∧ Remains s st rest ∧ st.2.pages = requests log ∧
      (st.2.waited = true ↔ ∃ h ∈ pages, h.putOff.isSome = true)) ∧
    ∀ (odd : Handling) (q : Request) (report : Report), attempt s q report = attemptOr s odd q report := by
  refine ⟨?_, fun odd q report => attempt_eq_attemptOr odd q report⟩
  obtain ⟨es, htrace, hdoes⟩ := hrun.trace
  have hat : PagesAt s st log := by
    rw [htrace.recorded]
    exact hdoes.keeps (fun _ _ _ _ _ h hp hdoes => pagesAt_stage h hp hdoes) ⟨by simp, rfl, rfl⟩
  obtain ⟨report', log', pages, rest, hlog, ⟨⟨before, rfl, hquiet⟩, hsounds, hcounted, hwaited⟩, hrest, hcounts⟩ :=
    hat.told
  refine ⟨before, pages, rest, hlog, hquiet, hsounds, hrest, ?_, ?_⟩
  · rw [hcounts.pages, hcounted, hlog, ← requests_append]
  · rw [hcounts.waited, Bool.or_false, hwaited]

/-- A repository that asks to wait at its first request, and that then answers with one page. -/
def busy (log : List Event) (e : Effect) : e.Reply × List Event :=
  recording (if requests log = 0 then .ofStatus 503 (some (.ofSecs 2)) else wholePage) log e

theorem waits_once_busy :
    ∃ st log, (course Surroundings.sample).Leads Recorded start [] st log ∧ requests log = 2 ∧
      st.2.waited = true ∧ st.2.pages = requests log ∧
      ∃ pages : List Handled, (∀ h ∈ pages, h.toTry.Sound Surroundings.sample) ∧
        ∃ h ∈ pages, h.putOff.isSome = true := by
  have hrecorded (log : List Event) (e : Effect) : Recorded log e (busy log e).1 (busy log e).2 := rfl
  have hrun := Course.leads_follow (c := course Surroundings.sample) hrecorded 2 start []
  obtain ⟨⟨before, pages, rest, -, -, hsounds, -, hpages, hwaited⟩, -⟩ := waits_once hrun
  have hwait : ((course Surroundings.sample).follow busy 2 start []).1.2.waited = true := by decide +kernel
  exact ⟨_, _, hrun, by decide +kernel, hwait, hpages, pages, hsounds, hwaited.1 hwait⟩

end Harvesting.Cycle
