import Harvesting.Proofs.Cycle.History
import Harvesting.Proofs.Plan.Planner

/-!
# Cycles that report success

What a report without a fault tells of the run: which page was read last, and which checkpoint was
accepted last. Repository, sink and store may answer anything, so the state is no more than the history.

A page is a success with any 2xx status, but its token is followed and its checkpoint is clean with
status 200 only. A cycle that ends at a page with another 2xx status reports success as well.

* `Recorded` — the answers when anything may be answered;
* `stored?` — the checkpoint that the store accepted last;
* `Finishes` — what is true of a history when a cycle reports success;
* `Cycle.finished_iff` — such a cycle is through with its result set exactly if the last status is 200;
* `Cycle.succeeded_partial` — one that is not.
-/

namespace Harvesting

/-- Anything is answered, and all of it is recorded. -/
def Recorded : Answers (List Event) := fun log e r log' => log' = log ++ [⟨e, r⟩]

/-- The last page that was read, with its request. -/
def lastExchange? (log : List Event) : Option (Request × Page) := (log.filterMap Event.exchange?).getLast?

/-- The checkpoint that the store accepted last for the key. -/
def stored? (key : String) (log : List Event) : Option Checkpoint :=
  (log.filterMap (Event.accepted? key)).getLast?

section

variable {log : List Event} {ev : Event} {key : String}

theorem lastExchange?_other (h : ev.exchange? = none) : lastExchange? (log ++ [ev]) = lastExchange? log := by
  rw [lastExchange?, List.filterMap_append, List.filterMap_cons_none h, List.filterMap_nil, List.append_nil]
  rfl

theorem lastExchange?_answer (q : Request) (limit : Span) (p : Page) :
    lastExchange? (log ++ [⟨.request q limit, .ok p⟩]) = some (q, p) := by
  rw [lastExchange?, List.filterMap_append]
  exact List.getLast?_concat

theorem stored?_other (h : ev.accepted? key = none) : stored? key (log ++ [ev]) = stored? key log := by
  rw [stored?, List.filterMap_append, List.filterMap_cons_none h, List.filterMap_nil, List.append_nil]
  rfl

theorem stored?_save (key : String) (c : Checkpoint) : stored? key (log ++ [⟨.save key c, .ok ()⟩]) = some c := by
  have haccepted : Event.accepted? key ⟨.save key c, .ok ()⟩ = some c := if_pos rfl
  rw [stored?, List.filterMap_append, List.filterMap_cons_some haccepted]
  exact List.getLast?_concat

end

/-- The last page was a success, and the store accepted a checkpoint for it that ends the window. -/
structure Finishes (s : CycleSettings) (window : Window) (log : List Event) (p : Page)
    (c : Checkpoint) : Prop where
  read : ∃ q, lastExchange? log = some (q, p)
  success : Outcome.ofPage p = .success
  accepted : stored? s.key log = some c
  window : c.window = window
  token : c.token = none
  clean : c.isClean = true ↔ p.status = 200
  last : p.status = 200 → p.token = none

variable {s : CycleSettings} {window : Window} {log log' : List Event} {p : Page} {c : Checkpoint}

theorem Finishes.quiet {e : Effect} {r : e.Reply} (h : Finishes s window log p c) (he : e.isQuiet = true)
    (hlog : Recorded log e r log') : Finishes s window log' p c where
  read := by
    rw [hlog, lastExchange?_other (exchange?_of_quiet he)]
    exact h.read
  success := h.success
  accepted := by
    rw [hlog, stored?_other (accepted?_of_quiet he)]
    exact h.accepted
  window := h.window
  token := h.token
  clean := h.clean
  last := h.last

/-- The last page that was read is a fault. -/
def LastFailed (log : List Event) : Prop :=
  ∃ q p status e, lastExchange? log = some (q, p) ∧ Outcome.ofPage p = .failed status e

/-- The checkpoint that was accepted last does not say that a result set is through. -/
def Unsettled (s : CycleSettings) (log : List Event) : Prop :=
  ∀ c, stored? s.key log = some c → c.isClean = true → c.token ≠ none

/-- No page was a fault, and the result set is not through. -/
structure Underway (s : CycleSettings) (log : List Event) : Prop where
  sound : ¬ LastFailed log
  unsettled : Unsettled s log

theorem not_lastFailed {q : Request} (h : lastExchange? log = some (q, p)) (hp : Outcome.ofPage p = .success) :
    ¬ LastFailed log := by
  rintro ⟨q', p', status, e, hread, hfailed⟩
  cases h.symm.trans hread
  cases hp.symm.trans hfailed

theorem Unsettled.keep {ev : Event} (h : Unsettled s log) (hlog : log' = log ++ [ev])
    (hev : ev.accepted? s.key = none) : Unsettled s log' := by
  rw [Unsettled, hlog, stored?_other hev]
  exact h

theorem Unsettled.save {r : Except Store.Fault Unit} (h : Unsettled s log)
    (hlog : Recorded log (.save s.key c) r log') (hc : c.isClean = true → c.token ≠ none) :
    Unsettled s log' := by
  rcases r with f | ⟨⟩
  · exact h.keep hlog rfl
  · intro c' hstored
    rw [hlog, stored?_save] at hstored
    cases hstored
    exact hc

theorem quiet_underway : Quiet Recorded (Underway s) := by
  intro log e r log' he h hlog
  refine ⟨?_, h.unsettled.keep hlog (accepted?_of_quiet he)⟩
  rw [LastFailed, hlog, lastExchange?_other (exchange?_of_quiet he)]
  exact h.sound

namespace Cycle

/-- If the report tells of success, the cycle has read a last page and stored a last checkpoint. -/
def Accounted (s : CycleSettings) (report : Report) (log : List Event) : Prop :=
  ∀ d, report.decision = some d → d.isWait = false → report.failed = false → report.cancelled = false →
    ∃ p c, Finishes s d.window log p c

/-- The report tells what the history does. -/
structure Tells (s : CycleSettings) (report : Report) (log : List Event) : Prop where
  success : Accounted s report log
  failure : LastFailed log → report.failed = true ∧ Unsettled s log

/-- The requests are for the window of the decision. -/
def Pursues (report : Report) (q : Request) : Prop := ∃ d, report.decision = some d ∧ q.window = d.window

/-- What holds before each stage of a cycle. -/
def TellsAt (s : CycleSettings) : Cycle × Report → List Event → Prop
  | (.planning, report), log => report.decision = none ∧ Underway s log
  | (.paging _ q, report), log => Pursues report q ∧ Underway s log
  | (.ended, report), log => Tells s report log
  | (.broken, _), _ => True

theorem quiet_tells (report : Report) : Quiet Recorded (Tells s report) := by
  intro log e r log' he h hlog
  constructor
  · intro d hd hactive hfailed hcancelled
    obtain ⟨p, c, hfinishes⟩ := h.success d hd hactive hfailed hcancelled
    exact ⟨p, c, hfinishes.quiet he hlog⟩
  · intro hlast
    rw [LastFailed, hlog, lastExchange?_other (exchange?_of_quiet he)] at hlast
    obtain ⟨hfailed, hunsettled⟩ := h.failure hlast
    exact ⟨hfailed, hunsettled.keep hlog (accepted?_of_quiet he)⟩

theorem tells_cancel {report : Report} (h : Underway s log) : Tells s report.cancel log := by
  constructor
  · intro d _ _ _ hcancelled
    cases hcancelled
  · intro hlast
    exact absurd hlast h.sound

theorem tells_failed {report : Report} (hfailed : report.failed = true) (h : Unsettled s log) :
    Tells s report log := by
  constructor
  · intro d _ _ hfailed'
    cases hfailed.symm.trans hfailed'
  · intro _
    exact ⟨hfailed, h⟩

/-- While the documents of a page are handed on, the page is the last one that was read. -/
theorem paging_recorded (s : CycleSettings) (q : Request) :
    Paging Recorded (fun _ => True) (Underway s) (Underway s) (Unsettled s)
      (fun p _ log => (∃ q, lastExchange? log = some (q, p)) ∧ Unsettled s log) s q where
  soundK _ _ := trivial
  soundT _ _ := trivial
  soundJ _ _ _ _ := trivial
  quietK := quiet_underway
  quietT := quiet_underway
  again _ h := h
  twice _ h := h.unsettled
  cancelled log log' h hlog := quiet_underway _ _ _ _ rfl h hlog
  putOff log answer log' wait h hlog hwait := by
    refine ⟨?_, h.unsettled.keep hlog rfl⟩
    -- a page that puts the request off is no fault
    rcases answer with f | p
    · cases hwait
    · rintro ⟨q', p', status, e, hread, hfailed⟩
      rw [hlog, lastExchange?_answer] at hread
      cases hread
      cases hwait.symm.trans hfailed
  failed log answer log' _ _ h hlog _ := h.unsettled.keep hlog rfl
  answered log p log' h hlog _ := by
    refine ⟨⟨q, ?_⟩, h.unsettled.keep hlog rfl⟩
    rw [hlog, lastExchange?_answer]
  taken log p ds d log' h _ hlog := by
    refine ⟨?_, h.2.keep hlog rfl⟩
    rw [hlog, lastExchange?_other rfl]
    exact h.1
  refused log p ds d f log' h _ hlog := h.2.keep hlog rfl

section

variable {q : Request} {flushed : Except SinkFault Unit} {saved : Except Store.Fault Unit}
  {log₁ log₂ : List Event}

/-- A page that was dealt with without a fault, and that is not followed by another one, is the last. -/
theorem finishes_of_given (hp : Outcome.ofPage p = .success) (hread : ∃ q, lastExchange? log = some (q, p))
    (hfault : faultAfter ⟨p.status, none, p.token⟩ flushed = none)
    (htoken : tokenAfter ⟨p.status, none, p.token⟩ flushed = none) (h₁ : Recorded log .flush flushed log₁)
    (h₂ : Recorded log₁ (.save s.key (checkpointAfter q ⟨p.status, none, p.token⟩ flushed)) (.ok ()) log₂) :
    Finishes s q.window log₂ p (checkpointAfter q ⟨p.status, none, p.token⟩ flushed) := by
  have hclean : (checkpointAfter q ⟨p.status, none, p.token⟩ flushed).isClean = true ↔ p.status = 200 := by
    rw [isClean_checkpointAfter]
    constructor
    · intro h
      exact Int.ofNat.inj h.1
    · intro h
      exact ⟨congrArg Int.ofNat h, firstFault_eq_none.1 hfault⟩
  refine ⟨?_, hp, ?_, rfl, htoken, hclean, ?_⟩
  · rw [h₂, h₁, lastExchange?_other rfl, lastExchange?_other rfl]
    exact hread
  · rw [h₂, stored?_save]
  · -- with status 200 the token of the page was given on, and there is none
    intro hstatus
    exact (tokenAfter_of_clean (hclean.2 hstatus)).symm.trans htoken

/-- What was dealt with is told. -/
theorem safe_persist_recorded {a : Attempt} {report : Report} (hpursues : Pursues report q)
    (h : Attempted (Unsettled s)
      (fun p _ log => (∃ q, lastExchange? log = some (q, p)) ∧ Unsettled s log) s a log) :
    Program.Safe Recorded (fun _ => True)
      (Dealt (Tells s) (fun _ report' log => Pursues report' q ∧ Underway s log) report)
      (persist s q a) log := by
  refine safe_persist.2 ⟨trivial, ?_⟩
  intro flushed log₁ h₁
  refine ⟨trivial, ?_⟩
  intro saved log₂ h₂
  cases h with
  | @failed status e _ hunsettled =>
      -- the checkpoint of a page with a fault is never clean
      have hsaved : Unsettled s log₂ := by
        apply (hunsettled.keep h₁ rfl).save h₂
        intro hclean
        cases (isClean_checkpointAfter.1 hclean).2.1
      rw [Dealt]
      cases herror : firstFault Store.Fault.message (faultAfter ⟨status, some e, none⟩ flushed) saved with
      | some e' => exact tells_failed (by rw [reportAfter]) hsaved
      | none => cases (firstFault_eq_none.1 (firstFault_eq_none.1 herror).1).1
  | @given p _ hp hread =>
      obtain ⟨hread, hunsettled⟩ := hread
      have hunsettled₁ := hunsettled.keep h₁ rfl
      have hsound₂ : ¬ LastFailed log₂ := by
        obtain ⟨q', hread⟩ := hread
        apply not_lastFailed (q := q') _ hp
        rw [h₂, h₁, lastExchange?_other rfl, lastExchange?_other rfl]
        exact hread
      rw [Dealt]
      split
      · next t herror htoken =>
        refine ⟨?_, hsound₂, ?_⟩
        · rw [reportAfter, herror]
          exact hpursues
        · apply hunsettled₁.save h₂
          intro _ hnone
          cases htoken.symm.trans hnone
      · next hend =>
        refine ⟨?_, fun hlast => absurd hlast hsound₂⟩
        intro d hd _ hfailed _
        cases herror : firstFault Store.Fault.message (faultAfter ⟨p.status, none, p.token⟩ flushed) saved with
        | some e =>
            rw [reportAfter, herror] at hfailed
            cases hfailed
        | none =>
            -- no fault at all, and yet the cycle does not go on: it has no token
            obtain ⟨hfault, rfl⟩ := firstFault_eq_none.1 herror
            have htoken : tokenAfter ⟨p.status, none, p.token⟩ flushed = none :=
              Option.eq_none_iff_forall_ne_some.2 fun t htoken => hend t herror htoken
            obtain ⟨d', hd', hwindow⟩ := hpursues
            rw [reportAfter, herror] at hd
            cases hd'.symm.trans hd
            rw [← hwindow]
            exact ⟨p, _, finishes_of_given hp hread hfault htoken h₁ h₂⟩

end

/-- Every stage of a cycle leaves a report that tells what happened. -/
theorem safe_stage_tells {st : Cycle × Report} {p : Program (Cycle × Report)} (h : TellsAt s st log)
    (hp : course s st = some p) : Program.Safe Recorded (fun _ => True) (TellsAt s) p log := by
  obtain ⟨_ | ⟨tally, q⟩ | _ | _, report⟩ := st
  · cases hp
    obtain ⟨hdecision, hunderway⟩ := h
    refine (safe_plan (L := fun _ => Underway s) report (fun _ _ => trivial) quiet_underway
      (fun _ => quiet_underway) (fun _ _ h => h) (fun _ _ _ h hlog => quiet_underway _ _ _ _ rfl h hlog)
      hunderway).mono ?_
    rintro st log ⟨hunderway, hst⟩
    cases hst with
    | again => exact ⟨hdecision, hunderway⟩
    | cancelled => exact tells_cancel hunderway
    | broken => trivial
    | idle hrequest =>
        refine ⟨?_, fun hlast => absurd hlast hunderway.sound⟩
        intro d hd hactive
        cases hd
        cases (Decision.request?_of_active s.template hactive).symm.trans hrequest
    | paging _ hrequest _ => exact ⟨⟨_, rfl, by rw [Decision.eq_of_request? hrequest]⟩, hunderway⟩
  · cases hp
    obtain ⟨⟨d, hd, hwindow⟩, hunderway⟩ := h
    refine (safe_page (E := Tells s) (N := fun _ report' log => Pursues report' q ∧ Underway s log) tally
      report (paging_recorded s q) hunderway (fun _ _ _ => trivial) quiet_tells
      (fun r log _ hlog => tells_cancel hlog) ?_).mono ?_
    · intro r a log hcont ha
      exact safe_persist_recorded ⟨d, hcont.decision.trans hd, hwindow⟩ ha
    · intro st log hst
      cases hst with
      | ended hE => exact hE
      | continued hN => exact hN
  · cases hp
  · cases hp

/-- The report of a whole cycle tells what happened. -/
theorem tells_of_leads {report : Report}
    (hrun : (course s).Leads Recorded start [] (.ended, report) log) : Tells s report log := by
  have hstart : TellsAt s start [] := by
    refine ⟨rfl, ?_, nofun⟩
    intro hlast
    obtain ⟨q, p, status, e, hread, -⟩ := hlast
    cases hread
  exact hrun.safe (fun _ _ _ h hp => safe_stage_tells h hp) hstart

/-- After a page that is a fault, a cycle fails, and it does not leave a result set as through. -/
theorem failed_of_last {report : Report} {q : Request} {status : Int} {e : String}
    (hrun : (course s).Leads Recorded start [] (.ended, report) log) (hread : lastExchange? log = some (q, p))
    (hp : Outcome.ofPage p = .failed status e) : report.failed = true ∧ Unsettled s log :=
  (tells_of_leads hrun).failure ⟨q, p, status, e, hread, hp⟩

/-! ## The result -/

/-- A repository that answers with one page, and a sink and a store that do not refuse. -/
def recording (p : Page) (log : List Event) (e : Effect) : e.Reply × List Event :=
  let reply : e.Reply := match e with
    | .cancelled => false
    | .pause _ => true
    | .clock | .wallClock => ⟨0, 0⟩
    | .load _ => .ok none
    | .loadTally _ => .ok .empty
    | .request _ _ => .ok p
    | .save _ _ | .saveTally _ _ | .index _ | .flush | .close => .ok ()
  (reply, log ++ [⟨e, reply⟩])

/-- The sample harvested from this repository. -/
def recorded (p : Page) : (Cycle × Report) × List Event :=
  (course Surroundings.sample).follow (recording p) 2 start []

theorem leads_recorded (p : Page) :
    (course Surroundings.sample).Leads Recorded start [] (recorded p).1 (recorded p).2 :=
  Course.leads_follow (fun _ _ => rfl) 2 start []

/-- A page of status 200 that ends the result set. -/
def wholePage : Page := ⟨200, [], none, none, none⟩

/--
A cycle reports success. Then the last page that it read was a success, and the last checkpoint that the
store accepted for the source has no token and the window of the decision. The page is the last of its
result set and the checkpoint is clean exactly if the page has the status 200.
-/
theorem finished_iff {report : Report} {d : Decision}
    (hrun : (course s).Leads Recorded start [] (.ended, report) log) (hdecision : report.decision = some d)
    (hactive : d.isWait = false) (hfailed : report.failed = false) (hcancelled : report.cancelled = false) :
    ∃ q p c, lastExchange? log = some (q, p) ∧ Outcome.ofPage p = .success ∧ stored? s.key log = some c ∧
      c.window = d.window ∧ c.token = none ∧ (p.token = none ∧ c.isClean = true ↔ p.status = 200) := by
  obtain ⟨p, c, hfinishes⟩ := (tells_of_leads hrun).success d hdecision hactive hfailed hcancelled
  obtain ⟨q, hread⟩ := hfinishes.read
  refine ⟨q, p, c, hread, hfinishes.success, hfinishes.accepted, hfinishes.window, hfinishes.token, ?_⟩
  constructor
  · intro h
    exact hfinishes.clean.1 h.2
  · intro h
    exact ⟨hfinishes.last h, hfinishes.clean.2 h⟩

theorem finished_iff_whole :
    ∃ q p c, lastExchange? (recorded wholePage).2 = some (q, p) ∧ Outcome.ofPage p = .success ∧
      stored? "source" (recorded wholePage).2 = some c ∧ c.window = ⟨none, none⟩ ∧ c.token = none ∧
      (p.token = none ∧ c.isClean = true ↔ p.status = 200) := by
  have hended : (recorded wholePage).1 = (.ended, (recorded wholePage).1.2) := by rfl
  have hrun := leads_recorded wholePage
  rw [hended] at hrun
  exact finished_iff (d := .first ⟨none, none⟩) hrun (by decide +kernel) rfl (by decide +kernel)
    (by decide +kernel)

/-- A page of status 206 that is not the last one. -/
def partialPage : Page := ⟨206, [], some "more", none, none⟩

/-- A cycle reports success although the result set goes on, and what it stored is not clean. -/
theorem succeeded_partial :
    ∃ report log q p c, (course Surroundings.sample).Leads Recorded start [] (.ended, report) log ∧
      report.decision = some (.first ⟨none, none⟩) ∧ report.failed = false ∧ report.cancelled = false ∧
      lastExchange? log = some (q, p) ∧ p.token = some "more" ∧ stored? "source" log = some c ∧
      c.isClean = false := by
  have hended : (recorded partialPage).1 = (.ended, (recorded partialPage).1.2) := by rfl
  have hrun := leads_recorded partialPage
  rw [hended] at hrun
  refine ⟨_, _, Surroundings.sample.template, partialPage, ⟨none, none, none, none, 206⟩, hrun, ?_⟩
  exact ⟨by decide +kernel, by decide +kernel, by decide +kernel, by rfl, rfl, by rfl, rfl⟩

end Cycle

end Harvesting
