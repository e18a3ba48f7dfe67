import Harvesting.Proofs.Cycle.Bookkeeping
import Harvesting.Proofs.Cycle.Throttle

/-!
# What a report says

A report says that the cycle was cancelled, that it failed or that it waited for the repository. What a cycle did
says the same.

* `Event.tellsCancel` — events that tell that the harvest is cancelled;
* `Cycle.cancelled_eq` — a cycle is reported as cancelled exactly if it was told so;
* `Cycle.busy_of_failed` — only a cycle that had something to do can fail;
* `Cycle.Serves`, `Cycle.serves_of_waited` — a time for which the repository asked, and that passed;
* `Cycle.not_close` — a cycle leaves the sink open.
-/

namespace Harvesting

/-- The event tells that the harvest is cancelled. -/
def Event.tellsCancel : Event → Bool
  | ⟨.cancelled, true⟩ | ⟨.pause _, false⟩ => true
  | _ => false

namespace Cycle

open Program

variable {s : CycleSettings} {tally : Tally} {q : Request} {report : Report} {es log : List Event}
  {st st' : Cycle × Report}

/-- The requests for a page neither end the cycle nor change what was decided. -/
theorem continues_attempt {a : Option Attempt × Report} (h : (attempt s q report).Does es a) :
    a.2.Continues report := by
  -- nothing is asked of the surroundings, so any will do
  have hpaging : Paging (fun (_ : Unit) _ _ _ => True) (fun _ => True) (fun _ => True) (fun _ => True) (fun _ => True)
      (fun _ _ _ => True) s q := by
    constructor <;> first | exact fun _ _ _ _ _ _ _ => trivial | exact fun _ _ => trivial | (intros; trivial)
  exact (Safe.of_ends h.ends (safe_attempt hpaging report trivial)).1

/-! ## Cancellation -/

theorem tellsCancel_attempt {a : Option Attempt × Report} (h : (attempt s q report).Does es a) :
    es.any Event.tellsCancel = a.1.isNone := by
  cases does_tries h with
  | cancelled _ _ => rfl
  | @settled t report' _ hsound _ =>
      have hhanded : t.handed.any Event.tellsCancel = false := by
        rw [List.any_eq_false]
        intro ev hev
        obtain ⟨d, taken, rfl⟩ := hsound.settled.indexes ev hev
        exact Bool.false_ne_true
      cases hput : t.putOff <;> simp [Try.events, hput, hhanded, Event.tellsCancel]

/-- A stage makes the report one of a cancelled cycle exactly if it is told so. -/
theorem cancelled_stage {p : Program (Cycle × Report)} (hp : course s st = some p) (hdoes : p.Does es st') :
    st'.2.cancelled = (st.2.cancelled || es.any Event.tellsCancel) := by
  obtain ⟨_ | ⟨tally, q⟩ | _ | _, report⟩ := st
  · cases hp
    cases does_planning hdoes <;> simp [Event.tellsCancel, Report.cancel]
  · cases hp
    -- a cycle ends as `finish` ends it, which is told nothing
    have hfinish {later : Report} {es : List Event} (h : (finish s tally later).Does es st') :
        es.any Event.tellsCancel = false ∧ st'.2 = later := by
      obtain ⟨⟨now, t, written, rfl⟩, rfl⟩ := does_closes h
      exact ⟨rfl, rfl⟩
    have hsaves (a : Attempt) (flushed : Except SinkFault Unit) (saved : Except Store.Fault Unit) :
        (saves s q a flushed saved).any Event.tellsCancel = false := rfl
    cases does_goes hdoes with
    | stopped hend =>
        obtain ⟨-, hreport⟩ := hfinish hend
        simp [hreport, Report.cancel, Event.tellsCancel]
    | cancelled hattempt hend =>
        obtain ⟨-, hreport⟩ := hfinish hend
        have hcancel := tellsCancel_attempt hattempt
        simp [hreport, Report.cancel, hcancel]
    | last hattempt hend =>
        obtain ⟨hend, hreport⟩ := hfinish hend
        have hcancel := tellsCancel_attempt hattempt
        have hsame := (continues_attempt hattempt).cancelled
        simpa [hreport, hcancel, hend, hsaves, Event.tellsCancel] using hsame
    | next hattempt =>
        have hcancel := tellsCancel_attempt hattempt
        have hsame := (continues_attempt hattempt).cancelled
        simpa [hcancel, hsaves, Event.tellsCancel] using hsame
  · cases hp
  · cases hp

/-- A cycle is reported as cancelled exactly if it was told so. -/
theorem cancelled_eq (h : (course s).Does start es st) : st.2.cancelled = es.any Event.tellsCancel := by
  have hstage (st : Cycle × Report) (log : List Event) (p : Program (Cycle × Report)) (es : List Event)
      (st' : Cycle × Report) (hst : st.2.cancelled = log.any Event.tellsCancel) (hp : course s st = some p)
      (hdoes : p.Does es st') : st'.2.cancelled = (log ++ es).any Event.tellsCancel := by
    rw [cancelled_stage hp hdoes, hst, List.any_append]
  exact h.invariant hstage rfl

/-! ## Failures -/

/-- A report of a failure is one of a cycle with something to do, before and after any stage. -/
def BusyAt : Cycle × Report → Prop
  | (.planning, report) => report.failed = false
  | (.paging _ _, report) => report.isBusy = true
  | (_, report) => report.failed = true → report.isBusy = true

theorem busyAt_stage {p : Program (Cycle × Report)} (h : BusyAt st) (hp : course s st = some p)
    (hdoes : p.Does es st') : BusyAt st' := by
  obtain ⟨_ | ⟨tally, q⟩ | _ | _, report⟩ := st
  · cases hp
    have hfailed : ¬ report.failed = true := by
      rw [show report.failed = false from h]
      exact Bool.false_ne_true
    cases does_planning hdoes with
    | again => exact h
    | @paging c now begun d q kept t written _ hrequest =>
        have hbusy := isBusy_planned s d
        rw [hrequest] at hbusy
        exact hbusy
    | stopped | cut | broken _ | idle _ _ => exact fun hfails => absurd hfails hfailed
  · cases hp
    obtain ⟨hturned, hdecision⟩ := does_page hdoes
    have hbusy : st'.2.isBusy = true := by
      rw [Report.isBusy, hdecision]
      exact h
    obtain ⟨stage, report'⟩ := st'
    generalize marks es = turned at hturned
    cases hturned with
    | next _ _ _ => exact hbusy
    | cancelled | putOff _ | last _ _ => exact fun _ => hbusy
  · cases hp
  · cases hp

theorem busyAt_does (h : (course s).Does start es st) : BusyAt st :=
  h.invariant (fun _ _ _ _ _ hst hp hdoes => busyAt_stage hst hp hdoes) rfl

theorem busy_of_failed (h : (course s).Does start es (.ended, report)) (hfailed : report.failed = true) :
    report.isBusy = true :=
  busyAt_does h hfailed

/-! ## Requests that are put off -/

/-- The time for which a page asked passed in full, right after the page. -/
def Serves (s : CycleSettings) (es : List Event) : Prop :=
  ∃ q p wait, p.Throttles wait ∧ [⟨.request q s.timeout, .ok p⟩, ⟨.pause wait, true⟩] <:+: es

theorem pagesAt_does (h : (course s).Does start es st) : PagesAt s st es :=
  h.invariant (fun _ _ _ _ _ hst hp hdoes => pagesAt_stage hst hp hdoes) ⟨List.forall_mem_nil _, rfl, rfl⟩

theorem serves_of_waited (h : (course s).Does start es st) (hwaited : st.2.waited = true) : Serves s es := by
  obtain ⟨report', log', pages, rest, rfl, ⟨⟨before, rfl, -⟩, hsounds, -, htells⟩, -, hcounts⟩ := (pagesAt_does h).told
  rw [hcounts.waited, Bool.or_false, htells] at hwaited
  obtain ⟨page, hpage, hput⟩ := hwaited
  obtain ⟨⟨p, wait⟩, hputOff⟩ := Option.isSome_iff_exists.1 hput
  refine ⟨page.request, p, wait, (hsounds page hpage).putOff p wait hputOff, ?_⟩
  have hevents : [⟨.request page.request s.timeout, .ok p⟩, ⟨.pause wait, true⟩] <:+: page.events s := by
    refine ⟨[⟨.cancelled, false⟩], ⟨.request page.request s.timeout, page.answer⟩ :: page.handed ++
      [⟨.flush, page.flushed⟩, ⟨.save s.key page.checkpoint, page.saved⟩], ?_⟩
    rw [Handled.events, Try.events, hputOff]
    rfl
  have hpages : page.events s <:+: pages.flatMap (Handled.events s) := by
    obtain ⟨first, last, rfl⟩ := List.append_of_mem hpage
    exact ⟨first.flatMap (Handled.events s), last.flatMap (Handled.events s), by simp⟩
  exact (hevents.trans hpages).trans ⟨before, rest, rfl⟩

/-- A cycle leaves the sink open. -/
theorem not_close (h : (course s).Does start es st) : ∀ ev ∈ es, ev.effect ≠ .close := by
  obtain ⟨report', log', pages, rest, rfl, ⟨⟨before, rfl, hquiet⟩, hsounds, -, -⟩, hrest, -⟩ := (pagesAt_does h).told
  have hcloses {es : List Event} (h : Closes s es) : ∀ ev ∈ es, ev.effect ≠ .close := by
    obtain ⟨now, t, written, rfl⟩ := h
    simp
  refine List.forall_mem_append.2 ⟨List.forall_mem_append.2 ⟨?_, ?_⟩, ?_⟩
  · intro ev hev hclose
    have hev := hquiet ev hev
    rw [hclose] at hev
    cases hev
  · intro ev hev
    obtain ⟨page, hpage, hev⟩ := List.mem_flatMap.1 hev
    have hhanded : ∀ ev ∈ page.handed, ev.effect ≠ .close := by
      intro ev hev
      obtain ⟨d, taken, rfl⟩ := (hsounds page hpage).settled.indexes ev hev
      simp
    have hpage : ∀ ev ∈ page.events s, ev.effect ≠ .close := by
      cases hput : page.putOff <;> simpa [Handled.events, Try.events, hput, or_imp, forall_and] using hhanded
    exact hpage ev hev
  · cases hrest with
    | nothing => exact List.forall_mem_nil _
    | closed hcl => exact hcloses hcl
    | stopped hcl _ | cancelled _ hcl _ => simpa using hcloses hcl

end Cycle

end Harvesting
