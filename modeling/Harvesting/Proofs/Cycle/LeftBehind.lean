import Mathlib.Data.List.Induction
import Harvesting.Cycle.Runner
import Harvesting.Proofs.Cycle.History
import Harvesting.Proofs.Cycle.NoLoss
import Harvesting.Proofs.Plan.Past

/-!
# Windows that are left behind

A source leaves a window behind when it enters the next one: whatever the repository adds to the window
later is never harvested. Where the clock does not go back, all requests for the window were made by
cycles that were planned when it was over, unless it is the configured window. That one is harvested at
once, also while records can still be added to it.

* `Steady` — the clock never went back;
* `issued` — the requests that were answered with a page, each with the time at which its cycle was planned;
* `Opened` — the window is the configured one, or it is over;
* `Cycle.Timely` — the invariant, and `Cycle.timely_invariant` — every stage keeps it;
* `Cycle.past_of_left_behind` — the result, and `Cycle.left_behind_open` — a configured window that was not
  over.
-/

namespace Harvesting

/-! ## The clock -/

/-- The time of day that the clock told. -/
def Event.reading? : Event → Option Instant
  | ⟨.clock, now⟩ => some now
  | _ => none

/-- All times of day that the clock told, in order. -/
def readings (log : List Event) : List Instant := log.filterMap Event.reading?

/-- The clock never went back. -/
structure Steady (log : List Event) : Prop where
  sorted : (readings log).Pairwise (· ≤ ·)
  told : ∀ t ∈ readings log, t.nanos < 2 * Instant.nanosPerSec

section

variable {s : CycleSettings} {log : List Event} {ev : Event} {now : Instant}

theorem readings_append : readings (log ++ [ev]) = readings log ++ ev.reading?.toList := by
  rw [readings, List.filterMap_append, filterMap_one]
  rfl

theorem mem_readings_append {t : Instant} (h : t ∈ readings log) : t ∈ readings (log ++ [ev]) := by
  rw [readings_append]
  exact List.mem_append_left _ h

theorem Steady.of_append {es : List Event} (h : Steady (log ++ es)) : Steady log := by
  obtain ⟨hsorted, htold⟩ := h
  rw [readings, List.filterMap_append] at hsorted htold
  exact ⟨(List.pairwise_append.1 hsorted).1, fun t ht => htold t (List.mem_append_left _ ht)⟩

/-- What the clock tells next is not earlier. -/
theorem Steady.le {t : Instant} (h : Steady (log ++ [ev])) (ht : t ∈ readings log) (hev : ev.reading? = some now) :
    t ≤ now := by
  have hsorted := h.sorted
  rw [readings_append, hev] at hsorted
  exact (List.pairwise_append.1 hsorted).2.2 t ht now (List.mem_singleton_self now)

/-- A new plan is made at the time that the clock tells. -/
theorem reading_of_planned {x : Instant × Decision} (h : (log.getLast?.bind fun e => planned? s e ev) = some x) :
    ev.reading? = some x.1 := by
  obtain ⟨e, -, hplanned⟩ := Option.bind_eq_some_iff.1 h
  obtain ⟨c, -, rfl, -⟩ := planned?_eq_some hplanned
  rfl

/-- Plans are made at times that the clock told. -/
theorem mem_readings_of_planning {x : Instant × Decision} (h : x ∈ plannings s log) : x.1 ∈ readings log := by
  induction log using List.reverseRecOn with
  | nil => cases h
  | append_singleton log ev ih =>
      rw [plannings_append, List.mem_append, Option.mem_toList] at h
      rcases h with h | h
      · exact mem_readings_append (ih h)
      · rw [readings_append, reading_of_planned h]
        exact List.mem_append_right _ (List.mem_singleton_self _)

end

/-! ## Requests and the plans that they belong to -/

/-- A request that was answered with a page. -/
structure Issue where
  /-- When the cycle of the request was planned. -/
  planned : Instant
  request : Request
  page : Page
  deriving DecidableEq

/-- The request that an event answers, if it does, after these events. -/
def issue? (s : CycleSettings) (before : List Event) (ev : Event) : Option Issue :=
  (plannings s before).getLast?.bind fun x => ev.exchange?.map fun e => ⟨x.1, e.1, e.2⟩

/-- The requests of some events after others. -/
def issuedAfter (s : CycleSettings) : List Event → List Event → List Issue
  | _, [] => []
  | before, ev :: log => (issue? s before ev).toList ++ issuedAfter s (before ++ [ev]) log

/-- The requests that were answered with a page, in order. -/
def issued (s : CycleSettings) (log : List Event) : List Issue := issuedAfter s [] log

section

variable {s : CycleSettings} {log before : List Event} {ev : Event}

theorem issuedAfter_append {es : List Event} :
    issuedAfter s before (log ++ es) = issuedAfter s before log ++ issuedAfter s (before ++ log) es := by
  induction log generalizing before with
  | nil => simp [issuedAfter]
  | cons e log ih => simp [issuedAfter, ih]

theorem issued_append : issued s (log ++ [ev]) = issued s log ++ (issue? s log ev).toList := by
  rw [issued, issuedAfter_append]
  simp [issued, issuedAfter]

/-- What was issued stays in the history. -/
theorem mem_issued_of_append {es : List Event} {x : Issue} (h : x ∈ issued s log) : x ∈ issued s (log ++ es) := by
  rw [issued, issuedAfter_append]
  exact List.mem_append_left _ h

theorem issue?_eq_some {x : Issue} (h : issue? s log ev = some x) :
    ∃ y, (plannings s log).getLast? = some y ∧ x.planned = y.1 ∧ ev.exchange? = some (x.request, x.page) := by
  obtain ⟨y, hy, h⟩ := Option.bind_eq_some_iff.1 h
  obtain ⟨e, he, rfl⟩ := Option.map_eq_some_iff.1 h
  exact ⟨y, hy, rfl, he⟩

/-- A request is made by a cycle that was planned before, at a time that the clock told. -/
theorem mem_readings_of_issued {x : Issue} (h : x ∈ issued s log) : x.planned ∈ readings log := by
  induction log using List.reverseRecOn with
  | nil => cases h
  | append_singleton log ev ih =>
      rw [issued_append, List.mem_append, Option.mem_toList] at h
      rcases h with h | h
      · exact mem_readings_append (ih h)
      · obtain ⟨y, hy, hplanned, -⟩ := issue?_eq_some h
        rw [hplanned]
        exact mem_readings_append (mem_readings_of_planning (List.mem_of_getLast? hy))

/-- The last plan of a history: a new one, or the one that there was. -/
theorem getLast?_plannings_append : (plannings s (log ++ [ev])).getLast? =
    (log.getLast?.bind fun e => planned? s e ev).or (plannings s log).getLast? := by
  rw [plannings_append]
  cases log.getLast?.bind fun e => planned? s e ev with
  | none => simp
  | some x => simp

/-- The cycle of a request was planned no later than the last one. -/
theorem planned_le (h : Steady log) {x : Issue} (hx : x ∈ issued s log) {y : Instant × Decision}
    (hy : (plannings s log).getLast? = some y) : x.planned ≤ y.1 := by
  induction log using List.reverseRecOn with
  | nil => cases hx
  | append_singleton log ev ih =>
      rw [getLast?_plannings_append, Option.or_eq_some_iff] at hy
      rw [issued_append, List.mem_append, Option.mem_toList] at hx
      -- a new plan is made at the time that was told last
      rcases hy with hy | ⟨-, hy⟩
      · apply h.le _ (reading_of_planned hy)
        rcases hx with hx | hx
        · exact mem_readings_of_issued hx
        · obtain ⟨z, hz, hplanned, -⟩ := issue?_eq_some hx
          rw [hplanned]
          exact mem_readings_of_planning (List.mem_of_getLast? hz)
      · rcases hx with hx | hx
        · exact ih h.of_append hx hy
        · obtain ⟨z, hz, hplanned, -⟩ := issue?_eq_some hx
          cases hz.symm.trans hy
          rw [hplanned]
          exact .inr ⟨rfl, Nat.le_refl _⟩

/-- Where the clock is steady, requests are in the order in which their cycles were planned. -/
theorem pairwise_issued (h : Steady log) : (issued s log).Pairwise fun x y => x.planned ≤ y.planned := by
  induction log using List.reverseRecOn with
  | nil => exact .nil
  | append_singleton log ev ih =>
      have hpast := h.of_append
      rw [issued_append]
      refine List.pairwise_append.2 ⟨ih hpast, ?_, ?_⟩
      · cases issue? s log ev with
        | none => exact .nil
        | some z => exact List.pairwise_singleton _ z
      · intro x hx z hz
        obtain ⟨y, hy, hplanned, -⟩ := issue?_eq_some (Option.mem_toList.1 hz)
        rw [hplanned]
        exact planned_le hpast hx hy

end

/-! ## Windows that are over when they are planned -/

/-- The window is the configured one, or it is over at this time. -/
def Opened (p : Planner) (now : Instant) (w : Window) : Prop :=
  w.written = p.window.written ∨ ∃ b, w.upper = some b ∧ b.Whole ∧ p.Past b now

section

variable {p : Planner} {w : Window} {t now : Instant}

theorem Opened.mono (h : Opened p t w) (hp : p.InSeconds) (ht : t.nanos < 2 * Instant.nanosPerSec)
    (hnow : now.nanos < 2 * Instant.nanosPerSec) (hle : t ≤ now) : Opened p now w := by
  refine h.imp_right ?_
  rintro ⟨b, hb, hwhole, hpast⟩
  exact ⟨b, hb, hwhole, hpast.mono hp (.inl hwhole) ht hnow hle⟩

/-- The same is true of what is left of the window when it is written. -/
theorem Opened.written (h : Opened p now w) : Opened p now w.written := by
  rcases h with h | ⟨b, hb, hwhole, hpast⟩
  · exact .inl (w.written_written.trans h)
  · refine .inr ⟨b, ?_, hwhole, hpast⟩
    rw [Window.written, hb, Option.map_some, hwhole.written]

/-- Apart from the configured one, a window that was opened is over. -/
theorem Opened.past {b : Instant} (h : Opened p now w) (hw : w.written ≠ p.window.written)
    (hb : w.written.upper = some b) : p.Past b now := by
  rcases h with h | ⟨b', hb', hwhole, hpast⟩
  · exact absurd h hw
  · rw [Window.written, hb', Option.map_some, hwhole.written] at hb
    cases hb
    exact hpast

/-- What is planned after a window that was opened is opened. -/
theorem opened_of_plan? {c : Option Checkpoint} {d : Decision} {template q : Request}
    (hc : ∀ c' ∈ c, c'.window.Exact ∧ Opened p now c'.window) (hplan : p.plan? c now = some d)
    (hrequest : d.request? template = some q) : Opened p now d.window := by
  cases Planner.follows_plan? hplan with
  | first => exact .inl rfl
  | resume _ _ => exact (hc _ rfl).2
  | again _ => exact (hc _ rfl).2
  | advance _ _ _ _ _ =>
      obtain ⟨hpast, hwhole⟩ := Planner.past_of_advance (hc _ rfl).1 hplan
      exact .inr ⟨_, rfl, hwhole, hpast⟩
  | wait => cases hrequest

end

/-- The window was opened by the time of the last plan. -/
def Stamped (s : CycleSettings) (log : List Event) (window : Window) : Prop :=
  ∃ x, (plannings s log).getLast? = some x ∧ (Steady log → Opened s.planner x.1 window)

theorem Stamped.append {s : CycleSettings} {log : List Event} {window : Window} (h : Stamped s log window)
    (hp : s.planner.InSeconds) (ev : Event) : Stamped s (log ++ [ev]) window := by
  obtain ⟨x, hx, hopened⟩ := h
  rw [Stamped, getLast?_plannings_append, hx]
  cases hnew : log.getLast?.bind fun e => planned? s e ev with
  | none => exact ⟨x, rfl, fun hsteady => hopened hsteady.of_append⟩
  | some y =>
      refine ⟨y, rfl, ?_⟩
      intro hsteady
      have hreading := reading_of_planned hnew
      have hmem : x.1 ∈ readings log := mem_readings_of_planning (List.mem_of_getLast? hx)
      have hy : y.1 ∈ readings (log ++ [ev]) := by
        rw [readings_append, hreading]
        exact List.mem_append_right _ (List.mem_singleton_self _)
      exact (hopened hsteady.of_append).mono hp (hsteady.told _ (mem_readings_append hmem)) (hsteady.told _ hy)
        (hsteady.le hmem hreading)

/-! ## The invariant -/

namespace Cycle

open Surroundings

variable {σ : Type} [FaithfulStore σ] {allowed : Request → Except SourceFault Page → Prop} {s : CycleSettings}
  {w w' : Surroundings σ} {q : Request}

/--
All requests were for windows that were opened by the time of their plan, and so is the window of the
stored checkpoint by some time that the clock told.
-/
structure Timely (s : CycleSettings) (w : Surroundings σ) : Prop where
  issued : Steady w.log → ∀ x ∈ issued s w.log, Opened s.planner x.planned x.request.window
  stored : ∀ doc, w.document s.key = some doc → ∃ c : Checkpoint, doc = c.toDocument ∧
    (Steady w.log → ∃ t ∈ readings w.log, Opened s.planner t c.window)

/-- The window of a request was opened by the time of the last plan. -/
structure Current (s : CycleSettings) (q : Request) (w : Surroundings σ) : Prop extends Timely s w where
  stamped : Stamped s w.log q.window

/-- Before each stage: a request for a page is for a window that was opened. -/
def TimelyAt (s : CycleSettings) : Cycle × Report → Surroundings σ → Prop
  | (.paging _ q, _), w => Current s q w
  | _, w => Timely s w

/-- An event that stores no checkpoint, and that is no request for another window. -/
theorem Timely.other (h : Timely s w) {e : Effect} {r : e.Reply} (hr : Replies allowed w e r w')
    (hdocument : w'.document s.key = w.document s.key)
    (hstamped : ∀ q p, Event.exchange? ⟨e, r⟩ = some (q, p) → Stamped s w.log q.window) : Timely s w' where
  issued hsteady x hx := by
    rw [hr.1] at hsteady hx
    rw [issued_append, List.mem_append, Option.mem_toList] at hx
    rcases hx with hx | hx
    · exact h.issued hsteady.of_append x hx
    · obtain ⟨y, hy, hplanned, hexchange⟩ := issue?_eq_some hx
      obtain ⟨z, hz, hopened⟩ := hstamped _ _ hexchange
      cases hy.symm.trans hz
      rw [hplanned]
      exact hopened hsteady.of_append
  stored doc hdoc := by
    rw [hdocument] at hdoc
    obtain ⟨c, hc, hopened⟩ := h.stored doc hdoc
    refine ⟨c, hc, ?_⟩
    rw [hr.1]
    intro hsteady
    obtain ⟨t, ht, ht'⟩ := hopened hsteady.of_append
    exact ⟨t, mem_readings_append ht, ht'⟩

theorem quiet_timely : Quiet (Replies (σ := σ) allowed) (Timely s) := by
  intro w e r w' he h hr
  apply h.other hr (still_of_quiet he hr).document
  intro q p hexchange
  cases (exchange?_of_quiet he).symm.trans hexchange

/-- What a page does up to its checkpoint leaves the store as it is. -/
theorem document_of_page {e : Effect} {r : e.Reply} (he : OfPage s q e) (hr : Replies allowed w e r w') :
    w'.document s.key = w.document s.key := by
  cases e with
  | request q limit =>
      rcases r with f | p
      · exact (still_of_request_error hr).document
      · exact (of_request s.key hr).2.2.1
  | index d =>
      rcases r with f | ⟨⟩
      · exact (still_of_index_error hr).document
      · exact (of_index s.key hr).2.2.1
  | flush =>
      rcases r with f | ⟨⟩
      · exact (still_of_flush_error hr).document
      · exact (of_flush s.key hr).2.2.1
  | save k c => cases he
  | close => cases he
  | _ => exact (still_of_quiet rfl hr).document

/-- A checkpoint that is read is for a window that was opened. -/
theorem opened_of_load (h : Timely s w) {c : Option Checkpoint}
    (hr : Replies allowed w (.load s.key) (.ok c) w') : ∀ c' ∈ c, c'.window.Exact ∧
      (Steady w.log → ∃ t ∈ readings w.log, Opened s.planner t c'.window) := by
  rintro c' rfl
  have hreads := reads_of_load hr
  cases hdoc : w.document s.key with
  | none =>
      rw [hdoc] at hreads
      cases hreads
  | some doc =>
      rw [hdoc] at hreads
      obtain ⟨c'', hread, hc⟩ := hreads
      cases hc
      obtain ⟨c₀, rfl, hopened⟩ := h.stored doc hdoc
      rw [Checkpoint.window_of_ofDocument hread]
      refine ⟨Window.exact_written _, ?_⟩
      intro hsteady
      obtain ⟨t, ht, ht'⟩ := hopened hsteady
      exact ⟨t, ht, ht'.written⟩

section

variable (hp : s.planner.InSeconds)
include hp

/-- What a page does up to its checkpoint, and its request among it. -/
theorem Current.page (h : Current s q w) {e : Effect} {r : e.Reply} (he : OfPage s q e)
    (hr : Replies allowed w e r w') : Current s q w' where
  toTimely := by
    apply h.toTimely.other hr (document_of_page he hr)
    intro q' p hexchange
    cases e with
    | request q'' limit =>
        rcases r with f | p'
        · cases hexchange
        · obtain ⟨rfl, rfl⟩ := he
          cases hexchange
          exact h.stamped
    | _ => cases hexchange
  stamped := by
    rw [hr.1]
    exact h.stamped.append hp _

/-- A checkpoint for the window, whether or not the store accepts it. -/
theorem Current.save (h : Current s q w) {c : Checkpoint} (hc : c.window = q.window)
    {r : Except Store.Fault Unit} (hr : Replies allowed w (.save s.key c) r w') : Current s q w' where
  toTimely := by
    rcases r with f | ⟨⟩
    · exact h.toTimely.other hr (still_of_save_error hr).document nofun
    · obtain ⟨hdocument, -, -⟩ := of_save hr
      constructor
      · rw [hr.1, issued_append]
        intro hsteady x hx
        rw [List.mem_append, Option.mem_toList] at hx
        rcases hx with hx | hx
        · exact h.issued hsteady.of_append x hx
        · obtain ⟨-, -, -, hexchange⟩ := issue?_eq_some hx
          cases hexchange
      · intro doc hdoc
        cases hdocument.symm.trans hdoc
        refine ⟨c, rfl, ?_⟩
        rw [hr.1, hc]
        intro hsteady
        obtain ⟨x, hx, hopened⟩ := h.stamped
        have hmem : x.1 ∈ readings w.log := mem_readings_of_planning (List.mem_of_getLast? hx)
        exact ⟨x.1, mem_readings_append hmem, hopened hsteady.of_append⟩
  stamped := by
    rw [hr.1]
    exact h.stamped.append hp _

theorem safe_page_timely (tally : Tally) (report : Report) (h : Current s q w) :
    Program.Safe (Replies allowed) (Timely s) (TimelyAt s) (page s tally q report) w := by
  refine (safe_page_lasting (E := Timely s) (N := fun t => Current s (q.continueWith t)) tally report
    (fun _ hw => hw.toTimely) (fun _ hw => hw) quiet_timely (fun _ _ _ _ he hw hr => hw.page hp he hr)
    (fun _ _ _ _ _ hw hr => (hw.save hp rfl hr).toTimely) ?_ h).mono ?_
  · intro w a flushed t w' hw hr
    have hw' := hw.save hp rfl hr
    exact ⟨hw'.toTimely, hw'.stamped⟩
  · intro st w hst
    cases hst with
    | ended hw => exact hw
    | continued hw => exact hw

theorem safe_plan_timely (report : Report) (h : Timely s w) :
    Program.Safe (Replies allowed) (Timely s) (TimelyAt s) (plan s report) w := by
  -- what is known of the checkpoint that is read, and then of the plan that is made of it
  let L (c : Option Checkpoint) (w : Surroundings σ) : Prop :=
    Timely s w ∧ w.log.getLast? = some ⟨.load s.key, .ok c⟩ ∧ ∀ c' ∈ c, c'.window.Exact ∧
      (Steady w.log → ∃ t ∈ readings w.log, Opened s.planner t c'.window)
  let M (c : Option Checkpoint) (now : Instant) (w : Surroundings σ) : Prop :=
    Timely s w ∧ ∀ d q, s.planner.plan? c now = some d → d.request? s.template = some q →
      Stamped s w.log d.window
  have hquietM (c : Option Checkpoint) (now : Instant) : Quiet (Replies allowed) (M c now) := by
    rintro w e r w' he ⟨hw, hstamped⟩ hr
    refine ⟨quiet_timely _ _ _ _ he hw hr, ?_⟩
    intro d q hplan hrequest
    rw [hr.1]
    exact (hstamped d q hplan hrequest).append hp _
  have hload : ∀ w c w', Timely s w → Replies allowed w (.load s.key) (.ok c) w' → L c w' := by
    intro w c w' hw hr
    have hreading : Event.reading? ⟨.load s.key, .ok c⟩ = none := rfl
    refine ⟨quiet_timely _ _ _ _ rfl hw hr, by rw [hr.1, List.getLast?_concat], ?_⟩
    rw [hr.1, readings_append, hreading, Option.toList_none, List.append_nil]
    intro c' hc'
    obtain ⟨hexact, hopened⟩ := opened_of_load hw hr c' hc'
    exact ⟨hexact, fun hsteady => hopened hsteady.of_append⟩
  have hclock : ∀ w c now w', L c w → Replies allowed w .clock now w' → M c now w' := by
    rintro w c now w' ⟨hw, hlast, hc⟩ hr
    refine ⟨quiet_timely _ _ _ _ rfl hw hr, ?_⟩
    intro d q hplan hrequest
    rw [Stamped, hr.1, getLast?_plannings_append, hlast, Option.bind_some, planned?_load hplan]
    refine ⟨(now, d), rfl, ?_⟩
    intro hsteady
    apply opened_of_plan? _ hplan hrequest
    intro c' hc'
    obtain ⟨hexact, hopened⟩ := hc c' hc'
    obtain ⟨t, ht, ht'⟩ := hopened hsteady.of_append
    have hnow : now ∈ readings (w.log ++ [⟨.clock, now⟩]) := by simp [readings_append, Event.reading?]
    exact ⟨hexact, ht'.mono hp (hsteady.told _ (mem_readings_append ht)) (hsteady.told _ hnow) (hsteady.le ht rfl)⟩
  refine (safe_plan_at (L := L) (M := M) report (fun _ hw => hw) quiet_timely hquietM
    (fun _ _ hw => hw.1) (fun _ _ _ hw => hw.1) hload hclock h).mono ?_
  rintro st w ⟨hw, hst⟩
  cases hst with
  | again => exact hw
  | cancelled => exact hw
  | broken => exact hw
  | idle _ => exact hw
  | paging hplan hrequest hM =>
      have hwindow := congrArg Request.window (Decision.eq_of_request? hrequest)
      refine ⟨hw, ?_⟩
      rw [hwindow]
      exact hM.2 _ _ hplan hrequest

/-- Every stage of a cycle keeps to windows that were opened, and so does a crash. -/
theorem timely_invariant :
    Course.Invariant (Replies (σ := σ) allowed) Crash (course s) start (Timely s) (TimelyAt s) where
  sound := by
    rintro ⟨_ | _ | _ | _, report⟩ w hw
    · exact hw
    · exact hw.toTimely
    · exact hw
    · exact hw
  first w hw := hw
  crash w w' hw hcrash := by
    rw [hcrash]
    exact ⟨hw.issued, hw.stored⟩
  stage := by
    rintro ⟨_ | ⟨tally, q⟩ | _ | _, report⟩ w p hw hp'
    · cases hp'
      exact safe_plan_timely hp report hw
    · cases hp'
      exact safe_page_timely hp tally report hw
    · cases hp'
    · cases hp'

end

/-! ## The result -/

/-- The request, as far as its bounds are written. -/
def written (q : Request) : Request := { q with window := q.window.written }

theorem window_of_chain {template : Request} {window : Window} {es : List (Request × Page)} {token : Option String}
    (h : Chain template window es token) : ∀ e ∈ es, e.1.window = window := by
  induction h with
  | first _ _ =>
      intro e he
      cases List.mem_singleton.1 he
      rfl
  | next _ _ _ ih =>
      intro e he
      rcases List.mem_append.1 he with he | he
      · exact ih e he
      · cases List.mem_singleton.1 he
        rfl

/-- Nothing was stored and nothing happened. -/
theorem timely_start {store : σ} {shelf : Shelf} (hempty : FaithfulStore.held store s.key .checkpoint = none) :
    Timely s (⟨store, shelf, []⟩ : Surroundings σ) where
  issued _ x hx := by cases hx
  stored doc hdoc := by cases hempty.symm.trans hdoc

/--
A source leaves a window behind: it reads the checkpoint of it, and the next window is planned. Where the
clock never went back, all requests of a chain that completed the window were made by cycles that were
planned when it was over for as long as the source asks. For the configured window this is so if the first
of them was.
-/
theorem past_of_left_behind (src : SourceSettings) {store : σ} {shelf : Shelf}
    (hempty : FaithfulStore.held store src.key .checkpoint = none) {p : Program (Cycle × Report)}
    {w : Surroundings σ}
    (hreach : (course (.of src)).Reaches (Replies anything) Crash start ⟨store, shelf, []⟩ p w)
    (hsteady : Steady w.log) {before after : List Event} {c : Checkpoint} {now lower upper : Instant}
    (hlog : w.log = before ++ ⟨.load src.key, .ok (some c)⟩ :: ⟨.clock, now⟩ :: after)
    (hadvance : src.planner.plan? (some c) now = some (.advance lower upper)) :
    ∃ b, c.window.upper = some b ∧ ∀ es : List Issue, es.Sublist (issued (.of src) before) →
      Chain src.template c.window (es.map fun x => (written x.request, x.page)) none →
      (c.window = src.window.written → ∀ x ∈ es.head?, src.planner.Past b x.planned) →
      ∀ x ∈ es, src.planner.Past b x.planned := by
  have hseconds : (CycleSettings.of src).planner.InSeconds := src.inSeconds
  have htimely := hreach.invariant (timely_invariant hseconds) (timely_start hempty)
  obtain ⟨b, hb⟩ : ∃ b, c.window.upper = some b := by
    cases Planner.follows_plan? hadvance with
    | advance _ _ hwindow _ _ => exact ⟨_, congrArg Window.upper hwindow⟩
  refine ⟨b, hb, ?_⟩
  intro es hsub hchain hfirst x hx
  have hissued : Steady before := by
    rw [hlog] at hsteady
    exact hsteady.of_append
  by_cases hconfigured : c.window = src.window.written
  · -- the requests come in the order of their plans, so none is planned before the first one
    obtain _ | ⟨y, es⟩ := es
    · cases hx
    have hy := hfirst hconfigured y rfl
    rcases List.mem_cons.1 hx with rfl | hx'
    · exact hy
    · have hle := (List.pairwise_cons.1 ((pairwise_issued hissued).sublist hsub)).1 x hx'
      have hexact : b.Exact := (hconfigured ▸ src.window.exact_written).2 b hb
      exact hy.mono hseconds hexact (hissued.told _ (mem_readings_of_issued (hsub.subset List.mem_cons_self)))
        (hissued.told _ (mem_readings_of_issued (hsub.subset hx))) hle
  · have hwindow : x.request.window.written = c.window :=
      window_of_chain hchain _ (List.mem_map_of_mem hx)
    have hopened := htimely.issued hsteady x (by rw [hlog]; exact mem_issued_of_append (hsub.subset hx))
    apply hopened.past
    · rw [hwindow]
      exact hconfigured
    · rw [hwindow]
      exact hb

/-- A source with a window of 100 seconds. -/
def bounded : SourceSettings :=
  { SourceSettings.default with name := some "source", window := ⟨some ⟨0, 0⟩, some ⟨100, 0⟩⟩ }

/-- A cycle of this source, where each window has one page. -/
def boundedCycle (now : Instant) (w : Surroundings MemoryStore) : (Cycle × Report) × Surroundings MemoryStore :=
  (course (.of bounded)).follow (calm (fun _ => .ok (samplePage (some "more"))) now) 3 start w

theorem reaches_boundedCycle {now : Instant} {w : Surroundings MemoryStore}
    (h : (course (.of bounded)).Reaches (Replies anything) Crash start sampleStart (.done start) w)
    (hended : (course (.of bounded) (boundedCycle now w).1).isNone = true) :
    (course (.of bounded)).Reaches (Replies anything) Crash start sampleStart (.done start)
      (boundedCycle now w).2 :=
  (Course.Reaches.follow (replies_calm (fun _ => trivial) now) 3 h).again (Option.isNone_iff_eq_none.1 hended)

/-- The checkpoint of a window, which was harvested as a whole. -/
def boundedCheckpoint (lower upper : Instant) : Checkpoint := ⟨none, some lower, some upper, none, 200⟩

/-- The request for a window. -/
def boundedIssue (now lower upper : Instant) : Issue :=
  ⟨now, { bounded.template with window := ⟨some lower, some upper⟩ }, samplePage (some "more")⟩

/-- The checkpoint that an event reads. -/
def loaded? (key : String) : Event → Option (Option Checkpoint)
  | ⟨.load k, .ok c⟩ => if k = key then some c else none
  | _ => none

/-- A history around the place at which a checkpoint and the time of day are read. -/
theorem eq_of_loaded? {log : List Event} {key : String} {i : Nat} {c : Option Checkpoint} {now : Instant}
    (hload : log[i]?.bind (loaded? key) = some c) (hclock : log[i + 1]?.bind Event.reading? = some now) :
    log = log.take i ++ ⟨.load key, .ok c⟩ :: ⟨.clock, now⟩ :: log.drop (i + 2) := by
  obtain ⟨e, he, hload⟩ := Option.bind_eq_some_iff.1 hload
  obtain ⟨e', he', hclock⟩ := Option.bind_eq_some_iff.1 hclock
  obtain ⟨hi, rfl⟩ := List.getElem?_eq_some_iff.1 he
  obtain ⟨hi', rfl⟩ := List.getElem?_eq_some_iff.1 he'
  have hfirst : log[i] = ⟨.load key, .ok c⟩ := by
    rw [loaded?.eq_def] at hload
    split at hload
    · next heq =>
      split at hload
      · next hkey =>
        cases hload
        rw [heq, hkey]
      · cases hload
    · cases hload
  have hsecond : log[i + 1] = ⟨.clock, now⟩ := by
    rw [Event.reading?.eq_def] at hclock
    split at hclock
    · next heq =>
      cases hclock
      exact heq
    · cases hclock
  rw [← hfirst, ← hsecond, ← List.drop_eq_getElem_cons hi', ← List.drop_eq_getElem_cons hi,
    List.take_append_drop]

/-- Three cycles, each of which comes when the window after the last one is over. -/
def lateEnd : Surroundings MemoryStore :=
  (boundedCycle ⟨400, 0⟩ (boundedCycle ⟨300, 0⟩ (boundedCycle ⟨200, 0⟩ sampleStart).2).2).2

theorem past_of_left_behind_sample :
    issued (.of bounded) (lateEnd.log.take 27) =
        [boundedIssue ⟨200, 0⟩ ⟨0, 0⟩ ⟨100, 0⟩, boundedIssue ⟨300, 0⟩ ⟨100, 0⟩ ⟨200, 0⟩] ∧
      bounded.planner.Past ⟨200, 0⟩ ⟨300, 0⟩ := by
  have hissued : issued (.of bounded) (lateEnd.log.take 27) =
      [boundedIssue ⟨200, 0⟩ ⟨0, 0⟩ ⟨100, 0⟩, boundedIssue ⟨300, 0⟩ ⟨100, 0⟩ ⟨200, 0⟩] := by decide +kernel
  have hreach : (course (.of bounded)).Reaches (Replies anything) Crash start sampleStart (.done start) lateEnd :=
    reaches_boundedCycle (reaches_boundedCycle (reaches_boundedCycle .start (by decide +kernel))
      (by decide +kernel)) (by decide +kernel)
  have hlog : lateEnd.log = lateEnd.log.take 27 ++
      ⟨.load bounded.key, .ok (some (boundedCheckpoint ⟨100, 0⟩ ⟨200, 0⟩))⟩ :: ⟨.clock, ⟨400, 0⟩⟩ ::
        lateEnd.log.drop 29 := eq_of_loaded? (by decide +kernel) (by decide +kernel)
  have hadvance : bounded.planner.plan? (some (boundedCheckpoint ⟨100, 0⟩ ⟨200, 0⟩)) ⟨400, 0⟩ =
      some (.advance ⟨200, 0⟩ ⟨300, 0⟩) := by decide +kernel
  obtain ⟨b, hb, hpast⟩ :=
    past_of_left_behind bounded rfl hreach ⟨by decide +kernel, by decide +kernel⟩ hlog hadvance
  cases hb
  -- the chain of the second window, which is not the configured one
  refine ⟨hissued, hpast [boundedIssue ⟨300, 0⟩ ⟨100, 0⟩ ⟨200, 0⟩] ?_ (.first rfl rfl) ?_ _
    (List.mem_singleton_self _)⟩
  · rw [hissued]
    exact List.sublist_cons_self _ _
  · intro hconfigured
    exact absurd hconfigured (by decide +kernel)

/-- Two cycles, the first of which comes before the end of the configured window. -/
def earlyEnd : Surroundings MemoryStore := (boundedCycle ⟨300, 0⟩ (boundedCycle ⟨50, 0⟩ sampleStart).2).2

/--
A source that can be used leaves its configured window behind, and the one request for it was made before
the window was over.
-/
theorem left_behind_open :
    bounded.check = .ok () ∧ bounded.window = ⟨some ⟨0, 0⟩, some ⟨100, 0⟩⟩ ∧
    (course (.of bounded)).Reaches (Replies anything) Crash start sampleStart (.done start) earlyEnd ∧
    Steady earlyEnd.log ∧ ∃ before after c x, earlyEnd.log =
        before ++ ⟨.load bounded.key, .ok (some c)⟩ :: ⟨.clock, ⟨300, 0⟩⟩ :: after ∧
      bounded.planner.plan? (some c) ⟨300, 0⟩ = some (.advance ⟨100, 0⟩ ⟨200, 0⟩) ∧
      [x].Sublist (issued (.of bounded) before) ∧
      Chain bounded.template c.window [(written x.request, x.page)] none ∧
      ¬ bounded.planner.Past ⟨100, 0⟩ x.planned := by
  have hissued : issued (.of bounded) (earlyEnd.log.take 14) = [boundedIssue ⟨50, 0⟩ ⟨0, 0⟩ ⟨100, 0⟩] := by
    decide +kernel
  have hreach : (course (.of bounded)).Reaches (Replies anything) Crash start sampleStart (.done start) earlyEnd :=
    reaches_boundedCycle (reaches_boundedCycle .start (by decide +kernel)) (by decide +kernel)
  refine ⟨by decide +kernel, rfl, hreach, ⟨by decide +kernel, by decide +kernel⟩, earlyEnd.log.take 14,
    earlyEnd.log.drop 16, boundedCheckpoint ⟨0, 0⟩ ⟨100, 0⟩, boundedIssue ⟨50, 0⟩ ⟨0, 0⟩ ⟨100, 0⟩,
    eq_of_loaded? (by decide +kernel) (by decide +kernel), by decide +kernel, ?_, .first rfl rfl, ?_⟩
  · simp [hissued]
  · intro hpast
    have hpast : (⟨100, 0⟩ : Instant) ≤ (⟨50, 0⟩ : Instant).shift (-15000000000) := hpast
    revert hpast
    decide +kernel

end Cycle

end Harvesting
