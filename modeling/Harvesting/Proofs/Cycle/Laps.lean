import Mathlib.Algebra.GroupWithZero.Nat
import Mathlib.Data.List.Induction
import Harvesting.Proofs.Cycle.Said

/-!
# The laps of a runner

A runner goes in laps: a cycle, and what the runner does until the next one. When it stops it has closed its sink,
once and after everything else, and its sums are those over the reports of its cycles.

* `Runner.Rests`, `Runner.Nexts` — what a runner does between two cycles;
* `Runner.Lap`, `Runner.Laps` — the laps up to a moment, and whether another one is to come;
* `Runner.total_eq` — the sums over some laps;
* `Runner.lapsAt_stage` — every stage keeps to the laps;
* `Runner.runs_in_laps` — the result.
-/

namespace Harvesting

/-! ## Between two cycles -/

/-- A runner by itself asks whether it is cancelled, asks for the time and pauses. -/
def Effect.isRest : Effect → Bool
  | .cancelled | .wallClock | .pause _ => true
  | _ => false

namespace Runner

open Program

variable {s : RunnerSettings} {waited again : Bool} {report : Report} {es log lead : List Event} {st : Runner}

/-- How a runner waits for a cycle, and whether it then goes on. -/
inductive Rests (s : RunnerSettings) (waited : Bool) : List Event → Bool → Prop where
  /-- The repository made the last cycle wait, which is enough. -/
  | skipped (stopped : Bool) : waited = true → s.trigger.isInterval = true →
      Rests s waited [⟨.cancelled, stopped⟩] (!stopped)
  /-- The schedule is over. -/
  | unscheduled {now : Instant} : s.trigger.delay? now = none → Rests s waited [⟨.wallClock, now⟩] false
  | paused {now : Instant} {delay : Span} (passed : Bool) : s.trigger.delay? now = some delay →
      Rests s waited [⟨.wallClock, now⟩, ⟨.pause delay, passed⟩] passed

/-- What a runner does behind a cycle, and whether it then goes on. -/
inductive Nexts (s : RunnerSettings) (report : Report) : List Event → Bool → Prop where
  | last : s.once = true ∨ report.cancelled = true → Nexts s report [] false
  | stopped : s.once = false → report.cancelled = false → Nexts s report [⟨.cancelled, true⟩] false
  | rests {es : List Event} {again : Bool} : s.once = false → report.cancelled = false →
      Rests s report.waited es again → Nexts s report (⟨.cancelled, false⟩ :: es) again

/-- A runner goes on with a cycle, or closes its sink. -/
def stageAfter (again : Bool) : Runner := if again then .cycling Cycle.start else .closing

theorem does_rests (h : (rest s waited).Does es st) : ∃ again, Rests s waited es again ∧ st = stageAfter again := by
  rw [rest] at h
  split at h
  · next hserved =>
    obtain ⟨stopped, es', rfl, h⟩ := h
    cases stopped <;> obtain ⟨rfl, rfl⟩ := h <;> exact ⟨_, .skipped _ hserved.1 hserved.2, rfl⟩
  · replace h := does_perform.1 h
    obtain ⟨now, es', rfl, h⟩ := h
    cases hdelay : s.trigger.delay? now with
    | none =>
        simp only [hdelay] at h
        obtain ⟨rfl, rfl⟩ := h
        exact ⟨_, .unscheduled hdelay, rfl⟩
    | some delay =>
        simp only [hdelay] at h
        obtain ⟨passed, es'', rfl, h⟩ := h
        cases passed <;> obtain ⟨rfl, rfl⟩ := h <;> exact ⟨_, .paused _ hdelay, rfl⟩

theorem does_nexts (h : (next s report).Does es st) : ∃ again, Nexts s report es again ∧ st = stageAfter again := by
  rw [next] at h
  split at h
  · next hlast =>
    obtain ⟨rfl, rfl⟩ := h
    exact ⟨_, .last hlast, rfl⟩
  · next hgoes =>
    obtain ⟨honce, hcancelled⟩ := not_or.1 hgoes
    rw [Bool.not_eq_true] at honce hcancelled
    obtain ⟨stopped, es', rfl, h⟩ := h
    cases stopped with
    | true =>
        obtain ⟨rfl, rfl⟩ := h
        exact ⟨_, .stopped honce hcancelled, rfl⟩
    | false =>
        obtain ⟨again, hrests, rfl⟩ := does_rests h
        exact ⟨again, .rests honce hcancelled hrests, rfl⟩

theorem Rests.isRest (h : Rests s waited es again) : ∀ ev ∈ es, ev.effect.isRest = true := by
  cases h <;> simp [Effect.isRest]

theorem Nexts.isRest (h : Nexts s report es again) : ∀ ev ∈ es, ev.effect.isRest = true := by
  cases h with
  | last _ => exact List.forall_mem_nil _
  | stopped _ _ => simp [Effect.isRest]
  | rests _ _ hrests => exact List.forall_mem_cons.2 ⟨rfl, hrests.isRest⟩

/-- A runner that goes on was not told that it is cancelled. -/
theorem Rests.untold (h : Rests s waited es again) (hagain : again = true) : ∀ ev ∈ es, ev.tellsCancel = false := by
  cases h with
  | skipped stopped _ _ =>
      obtain rfl : stopped = false := by simpa using hagain
      simp [Event.tellsCancel]
  | unscheduled _ => cases hagain
  | paused _ _ =>
      subst hagain
      simp [Event.tellsCancel]

theorem Nexts.untold (h : Nexts s report es again) (hagain : again = true) :
    s.once = false ∧ report.cancelled = false ∧ ∀ ev ∈ es, ev.tellsCancel = false := by
  cases h with
  | last _ => cases hagain
  | stopped _ _ => cases hagain
  | rests honce hcancelled hrests =>
      exact ⟨honce, hcancelled, List.forall_mem_cons.2 ⟨rfl, hrests.untold hagain⟩⟩

theorem Nexts.eq_nil_of_once (h : Nexts s report es again) (honce : s.once = true) : es = [] := by
  cases h with
  | last _ => rfl
  | stopped honce' _ | rests honce' _ _ => cases honce.symm.trans honce'

/-- A runner on an interval that goes on has waited for that long, or the repository made the cycle wait. -/
theorem Nexts.waits {every : Span} (h : Nexts s report es again) (hagain : again = true)
    (htrigger : s.trigger = .interval every) : ⟨.pause every, true⟩ ∈ es ∨ report.waited = true := by
  cases h with
  | last _ => cases hagain
  | stopped _ _ => cases hagain
  | rests _ _ hrests =>
      cases hrests with
      | skipped _ hwaited _ => exact .inr hwaited
      | unscheduled _ => cases hagain
      | paused _ hdelay =>
          rw [htrigger] at hdelay
          cases hdelay
          subst hagain
          exact .inl (by simp)

/-! ## Laps -/

/-- A cycle, and what the runner did between it and the next one. -/
structure Lap extends Round where
  rest : List Event

namespace Lap

/-- What happened in a lap. -/
def all (l : Lap) : List Event := l.events ++ l.rest

end Lap

/-- What happened up to the end of some laps. -/
def told (lead : List Event) (laps : List Lap) : List Event := lead ++ laps.flatMap Lap.all

/-- The sums over the reports of some laps. -/
def total (key : String) (laps : List Lap) : Summary := laps.foldl (fun sum l => sum.absorb l.report) (.empty key)

/-- The laps of a runner up to a moment, behind what it did before, and whether it goes on with a cycle. -/
inductive Laps (s : RunnerSettings) : List Event → List Lap → Bool → Prop where
  | atOnce : s.once = true ∨ s.trigger.isInterval = true → Laps s [] [] true
  | scheduled {lead : List Event} {again : Bool} : s.once = false → s.trigger.isInterval = false →
      Rests s false lead again → Laps s lead [] again
  | lap {lead : List Event} {laps : List Lap} {l : Lap} {again : Bool} : Laps s lead laps true →
      (Cycle.course s.cycle).Does Cycle.start l.events (.ended, l.report) → Nexts s l.report l.rest again →
      Laps s lead (laps ++ [l]) again

variable {laps before after : List Lap} {l : Lap}

theorem told_concat (lead : List Event) (laps : List Lap) (l : Lap) :
    told lead (laps ++ [l]) = told lead laps ++ l.events ++ l.rest := by
  simp [told, Lap.all]

theorem total_concat (key : String) (laps : List Lap) (l : Lap) :
    total key (laps ++ [l]) = (total key laps).absorb l.report := List.foldl_concat ..

theorem Laps.last (h : Laps s lead (laps ++ [l]) again) : Laps s lead laps true ∧
    (Cycle.course s.cycle).Does Cycle.start l.events (.ended, l.report) ∧ Nexts s l.report l.rest again := by
  generalize hlaps : laps ++ [l] = laps' at h
  cases h with
  | atOnce _ | scheduled _ _ _ => simp at hlaps
  | lap hbefore hcycle hnexts =>
      obtain ⟨rfl, hl⟩ := List.append_inj' hlaps rfl
      cases hl
      exact ⟨hbefore, hcycle, hnexts⟩

/-- Behind any lap but the last one the runner went on. -/
theorem Laps.split (h : Laps s lead (before ++ l :: after) again) : Laps s lead before true ∧
    (Cycle.course s.cycle).Does Cycle.start l.events (.ended, l.report) ∧
    Nexts s l.report l.rest (again || !after.isEmpty) := by
  induction after using List.reverseRecOn generalizing again with
  | nil => simpa using h.last
  | append_singleton after l' ih =>
      rw [← List.cons_append, ← List.append_assoc] at h
      obtain ⟨hbefore, hcycle, hnexts⟩ := ih h.last.1
      have hmore : (again || !(after ++ [l']).isEmpty) = true := by cases after <;> simp
      rw [hmore]
      exact ⟨hbefore, hcycle, hnexts⟩

/-- A runner that is to go on was not told that it is cancelled, by no event and no report. -/
theorem Laps.untold (h : Laps s lead laps again) (hagain : again = true) :
    (∀ ev ∈ told lead laps, ev.tellsCancel = false) ∧ ∀ l ∈ laps, l.report.cancelled = false := by
  induction h with
  | atOnce _ => exact ⟨List.forall_mem_nil _, List.forall_mem_nil _⟩
  | scheduled _ _ hrests =>
      refine ⟨?_, List.forall_mem_nil _⟩
      rw [told, List.flatMap_nil, List.append_nil]
      exact hrests.untold hagain
  | lap _ hcycle hnexts ih =>
      obtain ⟨hbefore, hreports⟩ := ih rfl
      obtain ⟨-, hcancelled, hrest⟩ := hnexts.untold hagain
      -- the cycle was not told either, or its report would tell
      have hevents := Cycle.cancelled_eq hcycle
      rw [show Report.cancelled _ = false from hcancelled, eq_comm, List.any_eq_false] at hevents
      rw [told_concat]
      refine ⟨List.forall_mem_append.2 ⟨List.forall_mem_append.2 ⟨hbefore, ?_⟩, hrest⟩,
        List.forall_mem_append.2 ⟨hreports, List.forall_mem_singleton.2 hcancelled⟩⟩
      intro ev hev
      simpa using hevents ev hev

theorem Laps.isRest_lead (h : Laps s lead laps again) : ∀ ev ∈ lead, ev.effect.isRest = true := by
  induction h with
  | atOnce _ => exact List.forall_mem_nil _
  | scheduled _ _ hrests => exact hrests.isRest
  | lap _ _ _ ih => exact ih

/-- Only a schedule is waited for before the first cycle. -/
theorem Laps.lead_eq_nil (h : Laps s lead laps again) (hfirst : s.once = true ∨ s.trigger.isInterval = true) :
    lead = [] := by
  induction h with
  | atOnce _ => rfl
  | scheduled honce hinterval _ => rcases hfirst with hfirst | hfirst <;> simp_all
  | lap _ _ _ ih => exact ih

/-- A runner that stops after one cycle has one lap. -/
theorem Laps.once (h : Laps s lead laps false) (honce : s.once = true) : ∃ l, laps = [l] ∧ l.rest = [] := by
  generalize hagain : false = again at h
  cases h with
  | atOnce _ => cases hagain
  | scheduled honce' _ _ => cases honce.symm.trans honce'
  | @lap _ laps l _ hbefore _ hnexts =>
      have hnone : laps = [] := by
        cases hbefore with
        | atOnce _ | scheduled _ _ _ => rfl
        | lap _ _ hnexts => cases honce.symm.trans (hnexts.untold rfl).1
      rw [hnone]
      exact ⟨l, rfl, hnexts.eq_nil_of_once honce⟩

theorem not_close_of_isRest {ev : Event} (h : ev.effect.isRest = true) : ev.effect ≠ .close := by
  intro hclose
  rw [hclose] at h
  cases h

theorem Laps.not_close (h : Laps s lead laps again) : ∀ ev ∈ told lead laps, ev.effect ≠ .close := by
  have hlead : ∀ ev ∈ lead, ev.effect ≠ .close := fun ev hev => not_close_of_isRest (h.isRest_lead ev hev)
  refine List.forall_mem_append.2 ⟨hlead, ?_⟩
  intro ev hev
  obtain ⟨l, hl, hlap⟩ := List.mem_flatMap.1 hev
  obtain ⟨before, after, rfl⟩ := List.append_of_mem hl
  obtain ⟨-, hcycle, hnexts⟩ := h.split
  rcases List.mem_append.1 hlap with hev | hev
  · exact Cycle.not_close hcycle ev hev
  · exact not_close_of_isRest (hnexts.isRest ev hev)

/-! ## Sums -/

theorem absorb_eq (sum : Summary) (r : Report) : sum.absorb r = ⟨sum.source,
    sum.cycles + (if r.isBusy then 1 else 0), sum.failedCycles + (if r.failed then 1 else 0),
    sum.records + r.records, sum.documents + r.documents⟩ := by
  have hbusy : (r.decision.any fun d => decide ¬d.isWait = true) = r.isBusy := by simp [Report.isBusy]
  rw [Summary.absorb, hbusy]

theorem total_eq (key : String) (laps : List Lap) : total key laps = ⟨key, laps.countP (·.report.isBusy),
    laps.countP (·.report.failed), (laps.map (·.report.records)).sum, (laps.map (·.report.documents)).sum⟩ := by
  induction laps using List.reverseRecOn with
  | nil => rfl
  | append_singleton laps l ih => simp [total_concat, ih, absorb_eq, List.countP_append]

theorem Laps.failed_le (h : Laps s lead laps again) :
    laps.countP (·.report.failed) ≤ laps.countP (·.report.isBusy) := by
  apply List.countP_mono_left
  intro l hl hfailed
  obtain ⟨before, after, rfl⟩ := List.append_of_mem hl
  exact Cycle.busy_of_failed h.split.2.1 hfailed

/-! ## Stages -/

/-- A runner before a stage, lap by lap. -/
def LapsAt (s : RunnerSettings) : Runner × Summary → List Event → Prop
  | (.opening, sum), log => sum = .empty s.cycle.key ∧ log = []
  | (.cycling st, sum), log => ∃ lead laps es, Laps s lead laps true ∧ sum = total s.cycle.key laps ∧
      log = told lead laps ++ es ∧ (Cycle.course s.cycle).Does Cycle.start es st
  | (.closing, sum), log => ∃ lead laps, Laps s lead laps false ∧ sum = total s.cycle.key laps ∧ log = told lead laps
  | (.stopped, sum), log => ∃ lead laps answer, Laps s lead laps false ∧ sum = total s.cycle.key laps ∧
      log = told lead laps ++ [⟨.close, answer⟩]
  | (.broken, _), _ => True

theorem Laps.lapsAt (h : Laps s lead laps again) :
    LapsAt s (stageAfter again, total s.cycle.key laps) (told lead laps) := by
  cases again with
  | true => exact ⟨lead, laps, [], h, rfl, (List.append_nil _).symm, .refl _⟩
  | false => exact ⟨lead, laps, h, rfl, rfl⟩

theorem lapsAt_opening {sum : Summary} {p : Program (Runner × Summary)} {st' : Runner × Summary}
    (hat : LapsAt s (.opening, sum) log) (hp : course s (.opening, sum) = some p) (hdoes : p.Does es st') :
    LapsAt s st' (log ++ es) := by
  obtain ⟨rfl, rfl⟩ := hat
  cases hp
  split at hdoes
  · next hfirst =>
    obtain ⟨rfl, rfl⟩ := hdoes
    exact (Laps.atOnce hfirst).lapsAt
  · next hscheduled =>
    obtain ⟨honce, hinterval⟩ := not_or.1 hscheduled
    rw [Bool.not_eq_true] at honce hinterval
    rw [does_bind] at hdoes
    obtain ⟨es₁, st, es₂, rfl, hrest, rfl, rfl⟩ := hdoes
    obtain ⟨again, hrests, rfl⟩ := does_rests hrest
    have hat := (Laps.scheduled honce hinterval hrests).lapsAt
    rw [told, List.flatMap_nil, List.append_nil] at hat
    rw [List.nil_append, List.append_nil]
    exact hat

theorem lapsAt_cycling {st : Cycle × Report} {sum : Summary} {p : Program (Runner × Summary)}
    {st' : Runner × Summary} (hat : LapsAt s (.cycling st, sum) log) (hp : course s (.cycling st, sum) = some p)
    (hdoes : p.Does es st') : LapsAt s st' (log ++ es) := by
  obtain ⟨lead, laps, cycle, hlaps, rfl, rfl, hcycle⟩ := hat
  obtain ⟨stage, report⟩ := st
  rw [course.eq_def] at hp
  simp only at hp
  split at hp
  · next hstage =>
    -- the cycle goes on
    cases hp
    rw [does_bind] at hdoes
    obtain ⟨es₁, st, es₂, rfl, hdoes, rfl, rfl⟩ := hdoes
    rw [List.append_nil, List.append_assoc]
    exact ⟨lead, laps, cycle ++ es₁, hlaps, rfl, rfl, hcycle.snoc hstage hdoes⟩
  · cases hp
    obtain ⟨rfl, rfl⟩ := hdoes
    trivial
  · next stage _ _ hbroken hstage =>
    obtain rfl : stage = .ended := by
      cases stage with
      | planning | paging _ _ => cases hstage
      | ended => rfl
      | broken => cases hbroken rfl
    cases hp
    rw [does_bind] at hdoes
    obtain ⟨es₁, st, es₂, rfl, hnext, rfl, rfl⟩ := hdoes
    obtain ⟨again, hnexts, rfl⟩ := does_nexts hnext
    have hat := (Laps.lap (l := ⟨⟨report, cycle⟩, es₁⟩) hlaps hcycle hnexts).lapsAt
    rw [total_concat, told_concat] at hat
    rw [List.append_nil]
    exact hat

theorem lapsAt_stage {st st' : Runner × Summary} {p : Program (Runner × Summary)} (hat : LapsAt s st log)
    (hp : course s st = some p) (hdoes : p.Does es st') : LapsAt s st' (log ++ es) := by
  obtain ⟨runner, sum⟩ := st
  cases runner with
  | opening => exact lapsAt_opening hat hp hdoes
  | cycling cycle => exact lapsAt_cycling hat hp hdoes
  | closing =>
      obtain ⟨lead, laps, hlaps, rfl, rfl⟩ := hat
      cases hp
      obtain ⟨answer, es', rfl, rfl, rfl⟩ := hdoes
      exact ⟨lead, laps, answer, hlaps, rfl, rfl⟩
  | stopped => cases hp
  | broken => cases hp

/--
A runner that stops, once or on either trigger, whatever its cycles were answered and whenever it was cancelled.
Its sink was closed once, after everything else. In between there were whole cycles, one after the other; all
that the runner did by itself is to ask whether it is cancelled, to ask for the time and to pause. No cycle
started after an event that tells of the cancellation, or after a cycle that was reported as cancelled. On an
interval, the first cycle started at once, and between two cycles the interval passed in full, unless in the
earlier one the time passed for which the repository asked. A runner that is to stop after one cycle had one
cycle. Records and documents are the sums over the reports of all cycles, the cycles that count are those with a
decision other than to wait, and of the failed ones, which are those that are reported so, there are no more.
-/
theorem runs_in_laps {st : Runner × Summary} (hrun : (course s).Leads Recorded (start s) [] st log)
    (hstopped : st.1 = .stopped) :
    ∃ (lead : List Event) (laps : List Lap) (answer : Except SinkFault Unit),
      log = lead ++ laps.flatMap Lap.all ++ [⟨.close, answer⟩] ∧
      (∀ ev ∈ lead ++ laps.flatMap Lap.all, ev.effect ≠ .close) ∧
      (∀ ev ∈ lead, ev.effect.isRest = true) ∧
      (∀ l ∈ laps, (Cycle.course s.cycle).Does Cycle.start l.events (.ended, l.report) ∧
        ∀ ev ∈ l.rest, ev.effect.isRest = true) ∧
      (∀ before l after, laps = before ++ l :: after →
        (∀ ev ∈ lead ++ before.flatMap Lap.all, ev.tellsCancel = false) ∧ ∀ l' ∈ before, l'.report.cancelled = false) ∧
      (∀ every, s.trigger = .interval every → lead = [] ∧ ∀ before l l' after, laps = before ++ l :: l' :: after →
        ⟨.pause every, true⟩ ∈ l.rest ∨ l.report.waited = true ∧ Cycle.Serves s.cycle l.events) ∧
      (s.once = true → lead = [] ∧ ∃ l, laps = [l] ∧ l.rest = []) ∧
      st.2 = ⟨s.cycle.key, laps.countP (·.report.isBusy), laps.countP (·.report.failed),
        (laps.map (·.report.records)).sum, (laps.map (·.report.documents)).sum⟩ ∧
      st.2.failedCycles ≤ st.2.cycles := by
  obtain ⟨es, htrace, hdoes⟩ := hrun.trace
  have hat : LapsAt s st log := by
    rw [htrace.recorded]
    exact hdoes.keeps (fun _ _ _ _ _ h hp hdoes => lapsAt_stage h hp hdoes) ⟨rfl, rfl⟩
  obtain ⟨runner, sum⟩ := st
  obtain rfl : runner = .stopped := hstopped
  obtain ⟨lead, laps, answer, hlaps, rfl, rfl⟩ := hat
  refine ⟨lead, laps, answer, rfl, hlaps.not_close, hlaps.isRest_lead, ?_, ?_, ?_, ?_, total_eq s.cycle.key laps, ?_⟩
  · intro l hl
    obtain ⟨before, after, rfl⟩ := List.append_of_mem hl
    obtain ⟨-, hcycle, hnexts⟩ := hlaps.split
    exact ⟨hcycle, hnexts.isRest⟩
  · rintro before l after rfl
    exact hlaps.split.1.untold rfl
  · intro every htrigger
    have hinterval : s.trigger.isInterval = true := by
      rw [htrigger]
      rfl
    refine ⟨hlaps.lead_eq_nil (.inr hinterval), ?_⟩
    rintro before l l' after rfl
    obtain ⟨-, hcycle, hnexts⟩ := hlaps.split
    rcases hnexts.waits rfl htrigger with hpause | hwaited
    · exact .inl hpause
    · exact .inr ⟨hwaited, Cycle.serves_of_waited hcycle hwaited⟩
  · intro honce
    exact ⟨hlaps.lead_eq_nil (.inl honce), hlaps.once honce⟩
  · rw [total_eq]
    exact hlaps.failed_le

/-- The sample, every minute. -/
def everyMinute : RunnerSettings := ⟨Surroundings.sample, .interval (.ofSecs 60), false⟩

/-- The times that something waited, or was to wait. -/
def pauses (log : List Event) : Nat := log.countP fun ev => match ev.effect with
  | .pause _ => true
  | _ => false

/-- A repository that asks to wait, gives a page and then fails. The harvest is cancelled a minute after that. -/
def calledOff (log : List Event) : (e : Effect) → e.Reply × List Event
  | .cancelled => (decide (2 ≤ pauses log), log ++ [⟨.cancelled, decide (2 ≤ pauses log)⟩])
  | e =>
    let page : Page := match requests log with
      | 0 => .ofStatus 503 (some (.ofSecs 2))
      | 1 => Cycle.wholePage
      | _ => .ofStatus 500 none
    Cycle.recording page log e

/-- A cycle that waits for the repository, one that fails, and one that is cancelled. -/
theorem runs_in_laps_calledOff :
    ∃ st log, (course everyMinute).Leads Recorded (start everyMinute) [] st log ∧ st.1 = .stopped ∧
      st.2 = ⟨"source", 2, 1, 0, 0⟩ ∧ ∃ laps answer, log = laps.flatMap Lap.all ++ [⟨.close, answer⟩] ∧
        laps.countP (·.report.isBusy) = 2 ∧ laps.countP (·.report.failed) = 1 ∧
        ∀ before l l' after, laps = before ++ l :: l' :: after →
          ⟨.pause (.ofSecs 60), true⟩ ∈ l.rest ∨ l.report.waited = true ∧ Cycle.Serves everyMinute.cycle l.events := by
  have hrecorded (log : List Event) (e : Effect) : Recorded log e (calledOff log e).1 (calledOff log e).2 := by
    cases e <;> rfl
  have hrun := Course.leads_follow (c := course everyMinute) hrecorded 12 (start everyMinute) []
  have hstopped : ((course everyMinute).follow calledOff 12 (start everyMinute) []).1.1 = .stopped := by rfl
  have hsum : ((course everyMinute).follow calledOff 12 (start everyMinute) []).1.2 = ⟨"source", 2, 1, 0, 0⟩ := by
    decide +kernel
  obtain ⟨lead, laps, answer, hlog, -, -, -, -, hinterval, -, htotal, -⟩ := runs_in_laps hrun hstopped
  obtain ⟨rfl, hwaits⟩ := hinterval (.ofSecs 60) rfl
  rw [hsum] at htotal
  injection htotal with _ hcycles hfailed
  exact ⟨_, _, hrun, hstopped, hsum, laps, answer, hlog, hcycles.symm, hfailed.symm, hwaits⟩

end Runner

end Harvesting
