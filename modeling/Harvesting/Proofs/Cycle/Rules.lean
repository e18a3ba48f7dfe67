import Harvesting.Cycle.Basic
import Harvesting.Proofs.Cycle.Run

/-!
# Rules for the parts of a cycle

One rule for each part of a cycle, to be used in place of its definition. A claim about cycles names
what holds while a page is dealt with (`Paging`); the rules say where each of it is left at the end of a
part.

* `Effect.isQuiet`, `Quiet` — effects that touch neither the sink nor the checkpoint;
* `CycleSettings.yield` — the documents of some records, in order;
* `Paging`, `safe_attempt` — the requests for one page and the delivery of its records;
* `checkpointAfter`, `safe_persist`, `safe_page` — the flush, the checkpoint and the next stage;
* `safe_plan_at`, `safe_plan` — the stage before the first page;
* `safe_stage` — any stage, where one property holds between two pages and another on a page.
-/

namespace Harvesting

/-- The effect asks for something and leaves the sink and the checkpoint of the source as they are. -/
def Effect.isQuiet : Effect → Bool
  | .save .. | .request .. | .index _ | .flush | .close => false
  | _ => true

variable {ω : Type}

/-- No quiet effect puts an end to `K`. -/
def Quiet (R : Answers ω) (K : ω → Prop) : Prop :=
  ∀ w e r w', e.isQuiet = true → K w → R w e r w' → K w'

/-- The documents of records in the order in which they are handed to the sink. -/
def CycleSettings.yield (s : CycleSettings) (records : List Record) : List Document :=
  records.flatMap fun r => (s.documents r).toOption.getD []

/-- The report is of the same cycle, which has neither failed nor been cancelled since. -/
structure Report.Continues (later earlier : Report) : Prop where
  decision : later.decision = earlier.decision
  failed : later.failed = earlier.failed
  cancelled : later.cancelled = earlier.cancelled

theorem Report.Continues.refl (r : Report) : r.Continues r := ⟨rfl, rfl, rfl⟩

theorem Report.Continues.trans {a b c : Report} (h : a.Continues b) (h' : b.Continues c) : a.Continues c :=
  ⟨h.decision.trans h'.decision, h.failed.trans h'.failed, h.cancelled.trans h'.cancelled⟩

namespace Cycle

open Program

variable {R : Answers ω} {I K T F : ω → Prop} {s : CycleSettings}

/-! ## Begin and end -/

theorem safe_begin (hquiet : Quiet R K) (hKI : ∀ w, K w → I w) {w : ω} (hw : K w) :
    Safe R I (fun _ w => K w) (begin s) w := by
  -- the tally is read, the clock asked, and the tally written: all of it is quiet
  refine safe_perform.2 ⟨hKI w hw, ?_⟩
  intro kept w₁ h₁
  have hw₁ := hquiet _ _ _ _ rfl hw h₁
  refine safe_perform.2 ⟨hKI w₁ hw₁, ?_⟩
  intro now w₂ h₂
  have hw₂ := hquiet _ _ _ _ rfl hw₁ h₂
  refine safe_perform.2 ⟨hKI w₂ hw₂, ?_⟩
  intro _ w₃ h₃
  exact hquiet _ _ _ _ rfl hw₂ h₃

theorem safe_finish (hquiet : Quiet R K) (hKI : ∀ w, K w → I w) (tally : Tally) (report : Report)
    {w : ω} (hw : K w) :
    Safe R I (fun a w => a = (.ended, report) ∧ K w) (finish s tally report) w := by
  refine safe_perform.2 ⟨hKI w hw, ?_⟩
  intro now w₁ h₁
  have hw₁ := hquiet _ _ _ _ rfl hw h₁
  refine safe_perform.2 ⟨hKI w₁ hw₁, ?_⟩
  intro _ w₂ h₂
  exact ⟨rfl, hquiet _ _ _ _ rfl hw₁ h₂⟩

/-! ## One page -/

/--
What holds while the page for `request` is dealt with: `K` before its request, and `J p ds` when the
repository gave `p` and the sink took the documents `ds` of it. `T` holds when there is no page yet and
no fault, because the repository puts the request off or the harvest is cancelled: the request may be
made again. `F` holds when the page cannot be had, because the request fails or the sink refuses a
document.
-/
structure Paging (R : Answers ω) (I K T F : ω → Prop) (J : Page → List Document → ω → Prop)
    (s : CycleSettings) (request : Request) : Prop where
  soundK : ∀ w, K w → I w
  soundT : ∀ w, T w → I w
  soundJ : ∀ p ds w, J p ds w → I w
  quietK : Quiet R K
  quietT : Quiet R T
  again : ∀ w, T w → K w
  twice : ∀ w, T w → F w
  cancelled : ∀ w w', K w → R w .cancelled true w' → T w'
  putOff : ∀ w answer w' wait, K w → R w (.request request s.timeout) answer w' →
    Outcome.of answer = .throttled wait → T w'
  failed : ∀ w answer w' status e, K w → R w (.request request s.timeout) answer w' →
    Outcome.of answer = .failed status e → F w'
  answered : ∀ w p w', K w → R w (.request request s.timeout) (.ok p) w' →
    Outcome.ofPage p = .success → J p [] w'
  taken : ∀ w p ds d w', J p ds w → d ∈ s.yield p.records → R w (.index d) (.ok ()) w' → J p (ds ++ [d]) w'
  refused : ∀ w p ds d f w', J p ds w → d ∈ s.yield p.records → R w (.index d) (.error f) w' → F w'

/-- The result of handing documents to the sink: all of them are taken, or one is refused. -/
def Delivered (F : ω → Prop) (J : List Document → ω → Prop) (ds : List Document) (report : Report)
    (a : Except SinkFault Unit × Report) (w : ω) : Prop :=
  a.2.Continues report ∧ match a.1 with
    | .ok () => J ds w
    | .error _ => F w

/-- What the requests for one page come to. -/
inductive Attempted (F : ω → Prop) (J : Page → List Document → ω → Prop) (s : CycleSettings) :
    Attempt → ω → Prop where
  /-- There is no page, or its documents could not all be handed on. -/
  | failed {status : Int} {e : String} {w : ω} : F w → Attempted F J s ⟨status, some e, none⟩ w
  /-- The sink has taken all documents of a page. -/
  | given {p : Page} {w : ω} :
      Outcome.ofPage p = .success → J p (s.yield p.records) w → Attempted F J s ⟨p.status, none, p.token⟩ w

section

variable {J : Page → List Document → ω → Prop} {request : Request}

theorem safe_deliver (h : Paging R I K T F J s request) {p : Page} (ds before : List Document)
    (report : Report) {w : ω} (hds : ∀ d ∈ ds, d ∈ s.yield p.records) (hw : J p before w) :
    Safe R I (Delivered F (J p) (before ++ ds) report) (deliver ds report) w := by
  induction ds generalizing before report w with
  | nil =>
      rw [deliver, safe_pure, List.append_nil]
      exact ⟨.refl _, hw⟩
  | cons d ds ih =>
      have hd := hds d List.mem_cons_self
      rw [deliver]
      refine safe_perform.2 ⟨h.soundJ p before w hw, ?_⟩
      intro answer w' hr
      rcases answer with f | ⟨⟩
      · -- the sink refuses `d`, and no further document is handed on
        exact ⟨.refl _, h.refused w p before d f w' hw hd hr⟩
      · have hds' : ∀ d' ∈ ds, d' ∈ s.yield p.records := by
          intro d' hd'
          exact hds d' (List.mem_cons_of_mem _ hd')
        have hrest := ih (before ++ [d]) { report with documents := report.documents + 1 } hds'
          (h.taken w p before d w' hw hd hr)
        rw [List.append_assoc] at hrest
        apply hrest.mono
        intro a w ha
        exact ⟨ha.1.trans ⟨rfl, rfl, rfl⟩, ha.2⟩

theorem safe_route (h : Paging R I K T F J s request) {p : Page} (rs : List Record)
    (before : List Document) (report : Report) {w : ω} (hrs : ∀ r ∈ rs, r ∈ p.records)
    (hw : J p before w) :
    Safe R I (Delivered F (J p) (before ++ s.yield rs) report) (route s.documents rs report) w := by
  induction rs generalizing before report w with
  | nil =>
      rw [route, safe_pure, CycleSettings.yield, List.flatMap_nil, List.append_nil]
      exact ⟨.refl _, hw⟩
  | cons r rs ih =>
      have hrest : ∀ r' ∈ rs, r' ∈ p.records := by
        intro r' hr'
        exact hrs r' (List.mem_cons_of_mem _ hr')
      rw [route]
      cases hdocs : s.documents r with
      | error f =>
          -- a record without documents is passed over
          have hyield : s.yield (r :: rs) = s.yield rs := by
            simp [CycleSettings.yield, hdocs, Except.toOption]
          rw [hyield]
          apply (ih before _ hrest hw).mono
          intro a w ha
          exact ⟨ha.1.trans ⟨rfl, rfl, rfl⟩, ha.2⟩
      | ok ds =>
          have hyield : s.yield (r :: rs) = ds ++ s.yield rs := by
            simp [CycleSettings.yield, hdocs, Except.toOption]
          have hmem : ∀ d ∈ ds, d ∈ s.yield p.records := by
            intro d hd
            exact List.mem_flatMap.2 ⟨r, hrs r List.mem_cons_self, by simpa [hdocs, Except.toOption] using hd⟩
          apply (safe_deliver h ds before { report with records := report.records + 1 } hmem hw).bind
          rintro ⟨f | ⟨⟩, report'⟩ w' ⟨hcont, hw'⟩
          · exact ⟨hcont.trans ⟨rfl, rfl, rfl⟩, hw'⟩
          · rw [hyield, ← List.append_assoc]
            apply (ih (before ++ ds) report' hrest hw').mono
            intro a w ha
            exact ⟨(ha.1.trans hcont).trans ⟨rfl, rfl, rfl⟩, ha.2⟩

theorem safe_settle (h : Paging R I K T F J s request) (answer : Except SourceFault Page)
    (report : Report) {w : ω} (hfailed : Outcome.of answer ≠ .success → F w)
    (hgiven : ∀ p, answer = .ok p → Outcome.ofPage p = .success → J p [] w) :
    Safe R I (fun a w => a.2.Continues report ∧ Attempted F J s a.1 w) (settle s answer report) w := by
  rcases answer with e | p
  · exact ⟨.refl _, .failed (hfailed (by simp [Outcome.of]))⟩
  · rw [settle]
    cases hp : Outcome.ofPage p with
    | failed status e => exact ⟨.refl _, .failed (hfailed (by simp [Outcome.of, hp]))⟩
    | throttled wait => exact ⟨.refl _, .failed (hfailed (by simp [Outcome.of, hp]))⟩
    | success =>
        apply (safe_route h p.records [] report (fun _ hr => hr) (hgiven p rfl hp)).bind
        rintro ⟨f | ⟨⟩, report'⟩ w' ⟨hcont, hw'⟩
        · exact ⟨hcont, .failed hw'⟩
        · exact ⟨hcont, .given hp hw'⟩

/-- What one request comes to: a page, nothing yet, or a fault. -/
structure Asked (T F : ω → Prop) (J : Page → List Document → ω → Prop) (answer : Except SourceFault Page)
    (w : ω) : Prop where
  given : ∀ p, answer = .ok p → Outcome.ofPage p = .success → J p [] w
  putOff : ∀ wait, Outcome.of answer = .throttled wait → T w
  failed : ∀ status e, Outcome.of answer = .failed status e → F w

theorem safe_ask (h : Paging R I K T F J s request) (report : Report) {w : ω} (hw : K w) :
    Safe R I (fun a w => a.2.Continues report ∧ Asked T F J a.1 w) (ask s request report) w := by
  refine safe_perform.2 ⟨h.soundK w hw, ?_⟩
  intro answer w' hr
  refine ⟨⟨rfl, rfl, rfl⟩, ?_, ?_, ?_⟩
  · rintro p rfl hp
    exact h.answered w p w' hw hr hp
  · intro wait hwait
    exact h.putOff w answer w' wait hw hr hwait
  · intro status e hfailed
    exact h.failed w answer w' status e hw hr hfailed

/-- An answer that is no page is settled as a fault, also when the request was put off twice. -/
theorem Asked.settle {answer : Except SourceFault Page} {w : ω} (ha : Asked T F J answer w)
    (h : Paging R I K T F J s request) (report : Report) :
    Safe R I (fun a w => a.2.Continues report ∧ Attempted F J s a.1 w) (settle s answer report) w := by
  apply safe_settle h answer report _ ha.given
  intro hfailed
  cases houtcome : Outcome.of answer with
  | success => exact absurd houtcome hfailed
  | throttled wait => exact h.twice w (ha.putOff wait houtcome)
  | failed status e => exact ha.failed status e houtcome

theorem safe_attempt (h : Paging R I K T F J s request) (report : Report) {w : ω} (hw : K w) :
    Safe R I (fun a w => a.2.Continues report ∧ match a.1 with
      | some a => Attempted F J s a w
      | none => T w) (attempt s request report) w := by
  apply (safe_ask h report hw).bind
  rintro ⟨answer, report₁⟩ w₁ ⟨hcont₁, hasked⟩
  have hsettle : Safe R I (fun a w => a.2.Continues report ∧ Attempted F J s a.1 w)
      (settle s answer report₁) w₁ := by
    apply (hasked.settle h report₁).mono
    intro a w ha
    exact ⟨ha.1.trans hcont₁, ha.2⟩
  cases hanswer : Outcome.of answer with
  | success =>
      simp only [hanswer]
      apply hsettle.bind
      intro a w₂ ha
      exact ha
  | failed status e =>
      simp only [hanswer]
      apply hsettle.bind
      intro a w₂ ha
      exact ha
  | throttled wait =>
      -- only here a second request is made, after a pause that may be cancelled
      have hw₁ := hasked.putOff wait hanswer
      simp only [hanswer]
      refine safe_perform.2 ⟨h.soundT w₁ hw₁, ?_⟩
      intro waited w₂ hr
      cases waited with
      | false => exact ⟨hcont₁, h.quietT _ _ _ _ rfl hw₁ hr⟩
      | true =>
        have hw₂ := h.again w₂ (h.quietT _ _ _ _ rfl hw₁ hr)
        apply (safe_ask h { report₁ with waited := true } hw₂).bind
        rintro ⟨answer', report₂⟩ w₃ ⟨hcont₂, hasked'⟩
        apply (hasked'.settle h report₂).bind
        rintro ⟨a, report₃⟩ w₄ ⟨hcont₃, ha⟩
        have hwaited : { report₁ with waited := true }.Continues report :=
          ⟨hcont₁.decision, hcont₁.failed, hcont₁.cancelled⟩
        exact ⟨(hcont₃.trans hcont₂).trans hwaited, ha⟩

end

/-! ## The checkpoint -/

/-- The fault of a page whose flush was answered. -/
def faultAfter (a : Attempt) (flushed : Except SinkFault Unit) : Option String :=
  firstFault SinkFault.message a.error flushed

/-- Where the result set goes on after a page whose flush was answered. -/
def tokenAfter (a : Attempt) (flushed : Except SinkFault Unit) : Option String :=
  if (faultAfter a flushed).isNone ∧ a.status = Checkpoint.okStatus then a.token else none

/-- The checkpoint that is saved for a page. -/
def checkpointAfter (request : Request) (a : Attempt) (flushed : Except SinkFault Unit) : Checkpoint :=
  ⟨tokenAfter a flushed, request.window.lower, request.window.upper, faultAfter a flushed, a.status⟩

theorem safe_persist {Q : Attempt → ω → Prop} {request : Request} {a : Attempt} {w : ω} :
    Safe R I Q (persist s request a) w ↔ I w ∧ ∀ flushed w₁, R w .flush flushed w₁ → I w₁ ∧
      ∀ saved w₂, R w₁ (.save s.key (checkpointAfter request a flushed)) saved w₂ →
        Q ⟨a.status, firstFault Store.Fault.message (faultAfter a flushed) saved, tokenAfter a flushed⟩ w₂ :=
  Iff.rfl

/-- A fault is kept by what comes after it. -/
theorem firstFault_eq_none {ε : Type} {wording : ε → String} {e : Option String} {r : Except ε Unit} :
    firstFault wording e r = none ↔ e = none ∧ r = .ok () := by
  cases r <;> simp [firstFault]

/-- A checkpoint is clean when nothing went wrong up to the flush and the status is 200. -/
theorem isClean_checkpointAfter {request : Request} {a : Attempt} {flushed : Except SinkFault Unit} :
    (checkpointAfter request a flushed).isClean = true ↔
      a.status = Checkpoint.okStatus ∧ a.error = none ∧ flushed = .ok () := by
  rw [Checkpoint.isClean, Bool.and_eq_true, decide_eq_true_eq, Option.isNone_iff_eq_none]
  exact and_congr_right fun _ => firstFault_eq_none

/-- Only a clean checkpoint has a token. -/
theorem clean_of_tokenAfter {request : Request} {a : Attempt} {flushed : Except SinkFault Unit} {t : String}
    (h : tokenAfter a flushed = some t) :
    (checkpointAfter request a flushed).isClean = true ∧ a.token = some t := by
  -- the token is given on in one case only, and that is the condition of a clean checkpoint
  rw [tokenAfter] at h
  split at h
  · next hclean =>
    obtain ⟨hfault, hstatus⟩ := hclean
    rw [Option.isNone_iff_eq_none, faultAfter, firstFault_eq_none] at hfault
    exact ⟨isClean_checkpointAfter.2 ⟨hstatus, hfault⟩, h⟩
  · cases h

theorem tokenAfter_of_clean {request : Request} {a : Attempt} {flushed : Except SinkFault Unit}
    (h : (checkpointAfter request a flushed).isClean = true) : tokenAfter a flushed = a.token := by
  obtain ⟨hstatus, hfault⟩ := isClean_checkpointAfter.1 h
  rw [tokenAfter, if_pos]
  exact ⟨Option.isNone_iff_eq_none.2 (firstFault_eq_none.2 hfault), hstatus⟩

/-! ## Stages -/

/-- The stage after a page: the end of the cycle, or the next page of the result set. -/
inductive Paged (E : Report → ω → Prop) (N : String → Report → ω → Prop) (request : Request) :
    Cycle × Report → ω → Prop where
  | ended {report : Report} {w : ω} : E report w → Paged E N request (.ended, report) w
  | continued {tally : Tally} {token : String} {report : Report} {w : ω} :
      N token report w → Paged E N request (.paging tally (request.continueWith token), report) w

/-- The report after a page that was dealt with: its status, and its fault if it has one. -/
def reportAfter (report : Report) (a : Attempt) : Report :=
  match a.error with
  | some e => { report with lastStatus := some a.status, error := some e, failed := true }
  | none => { report with lastStatus := some a.status }

/-- Where a page that was dealt with leads. -/
def Dealt (E : Report → ω → Prop) (N : String → Report → ω → Prop) (report : Report) (a : Attempt)
    (w : ω) : Prop :=
  match a.error, a.token with
  | none, some token => N token (reportAfter report a) w
  | _, _ => E (reportAfter report a) w

theorem safe_page {J : Page → List Document → ω → Prop} {E : Report → ω → Prop}
    {N : String → Report → ω → Prop} {request : Request} (tally : Tally) (report : Report) {w : ω}
    (h : Paging R I K T F J s request) (hw : K w) (hEI : ∀ r w, E r w → I w) (hE : ∀ r, Quiet R (E r))
    (hcancelled : ∀ (r : Report) w, r.Continues report → T w → E r.cancel w)
    (hpersist : ∀ (r : Report) a w, r.Continues report → Attempted F J s a w →
      Safe R I (fun a w => Dealt E N r a w) (persist s request a) w) :
    Safe R I (Paged E N request) (page s tally request report) w := by
  have hfinish (r : Report) (w : ω) (hr : E r w) :
      Safe R I (Paged E N request) (finish s tally r) w := by
    apply (safe_finish (hE r) (hEI r) tally r hr).mono
    rintro _ w' ⟨rfl, hw'⟩
    exact .ended hw'
  refine safe_perform.2 ⟨h.soundK w hw, ?_⟩
  intro stopped w₁ h₁
  cases stopped with
  | true => exact hfinish _ _ (hcancelled report w₁ (.refl _) (h.cancelled w w₁ hw h₁))
  | false =>
      apply (safe_attempt h report (h.quietK _ _ _ _ rfl hw h₁)).bind
      rintro ⟨a, r⟩ w₂ ⟨hcont, hw₂⟩
      cases a with
      | none => exact hfinish _ _ (hcancelled r w₂ hcont hw₂)
      | some a =>
          apply (hpersist r a w₂ hcont hw₂).bind
          rintro ⟨status, error, token⟩ w₃ hw₃
          -- the cycle goes on only without a fault and with a token
          cases error with
          | some e => exact hfinish _ _ hw₃
          | none =>
              cases token with
              | some t => exact .continued hw₃
              | none => exact hfinish _ _ hw₃

/-- The effect is one of a page, other than that its checkpoint is saved. -/
def OfPage (s : CycleSettings) (request : Request) : Effect → Prop
  | .request q limit => q = request ∧ limit = s.timeout
  | .save .. | .close => False
  | _ => True

/-- A page where one property lasts from its request to its checkpoint. -/
theorem safe_page_lasting {E : ω → Prop} {N : String → ω → Prop} {request : Request} (tally : Tally)
    (report : Report) {w : ω} (hKE : ∀ w, K w → E w) (hEI : ∀ w, E w → I w) (hE : Quiet R E)
    (hK : ∀ w e r w', OfPage s request e → K w → R w e r w' → K w')
    (hsave : ∀ w a flushed r w', K w → R w (.save s.key (checkpointAfter request a flushed)) r w' → E w')
    (hnext : ∀ w a flushed t w', K w → R w (.save s.key (checkpointAfter request a flushed)) (.ok ()) w' →
      N t w') (hw : K w) :
    Safe R I (Paged (fun _ => E) (fun t _ => N t) request) (page s tally request report) w := by
  have hquiet : Quiet R K := by
    intro w e r w' he hw hr
    apply hK w e r w' _ hw hr
    cases e <;> trivial
  have hpaging : Paging R I K K K (fun _ _ => K) s request :=
    { soundK := fun w hw => hEI w (hKE w hw)
      soundT := fun w hw => hEI w (hKE w hw)
      soundJ := fun _ _ w hw => hEI w (hKE w hw)
      quietK := hquiet
      quietT := hquiet
      again := fun _ hw => hw
      twice := fun _ hw => hw
      cancelled := fun _ _ hw hr => hK _ .cancelled _ _ trivial hw hr
      putOff := fun _ _ _ _ hw hr _ => hK _ (.request request s.timeout) _ _ ⟨rfl, rfl⟩ hw hr
      failed := fun _ _ _ _ _ hw hr _ => hK _ (.request request s.timeout) _ _ ⟨rfl, rfl⟩ hw hr
      answered := fun _ _ _ hw hr _ => hK _ (.request request s.timeout) _ _ ⟨rfl, rfl⟩ hw hr
      taken := fun _ _ _ d _ hw _ hr => hK _ (.index d) _ _ trivial hw hr
      refused := fun _ _ _ d _ _ hw _ hr => hK _ (.index d) _ _ trivial hw hr }
  refine safe_page tally report hpaging hw (fun _ => hEI) (fun _ => hE) (fun _ w _ hw => hKE w hw) ?_
  intro report' a w _ ha
  have hw : K w := by
    cases ha with
    | failed hw => exact hw
    | given _ hw => exact hw
  refine safe_persist.2 ⟨hEI w (hKE w hw), ?_⟩
  intro flushed w₁ h₁
  have hw₁ : K w₁ := hK _ .flush _ _ trivial hw h₁
  refine ⟨hEI w₁ (hKE w₁ hw₁), ?_⟩
  intro saved w₂ h₂
  rw [Dealt]
  split
  · next t hfault _ =>
    -- the result set goes on only if the checkpoint was saved
    obtain ⟨-, rfl⟩ := firstFault_eq_none.1 hfault
    exact hnext _ a flushed t _ hw₁ h₂
  · exact hsave _ a flushed _ _ hw₁ h₂

/-- The stage after planning. `M` is what is known of the checkpoint that was read and the time of day. -/
inductive PlannedAt (M : Option Checkpoint → Instant → ω → Prop) (s : CycleSettings) (report : Report) :
    Cycle × Report → ω → Prop where
  | again {w : ω} : PlannedAt M s report (.planning, report) w
  | cancelled {w : ω} : PlannedAt M s report (.ended, report.cancel) w
  | broken {w : ω} : PlannedAt M s report (.broken, report) w
  | idle {d : Decision} {w : ω} : d.request? s.template = none →
      PlannedAt M s report (.ended, { report with decision := some d }) w
  | paging {tally : Tally} {c : Option Checkpoint} {now : Instant} {d : Decision} {request : Request} {w : ω} :
      s.planner.plan? c now = some d → d.request? s.template = some request → M c now w →
        PlannedAt M s report (.paging tally request, { report with decision := some d }) w

/-- The stage after planning. `L` is what is known of the checkpoint that was read. -/
abbrev Planned (L : Option Checkpoint → ω → Prop) : CycleSettings → Report → Cycle × Report → ω → Prop :=
  PlannedAt fun c _ => L c

theorem safe_plan_at {L : Option Checkpoint → ω → Prop} {M : Option Checkpoint → Instant → ω → Prop}
    (report : Report) {w : ω} (hKI : ∀ w, K w → I w) (hK : Quiet R K) (hM : ∀ c now, Quiet R (M c now))
    (hLK : ∀ c w, L c w → K w) (hMK : ∀ c now w, M c now w → K w)
    (hload : ∀ w c w', K w → R w (.load s.key) (.ok c) w' → L c w')
    (hclock : ∀ w c now w', L c w → R w .clock now w' → M c now w') (hw : K w) :
    Safe R I (fun st w => K w ∧ PlannedAt M s report st w) (plan s report) w := by
  refine safe_perform.2 ⟨hKI w hw, ?_⟩
  intro stopped w₁ h₁
  cases stopped with
  | true => exact ⟨hK _ _ _ _ rfl hw h₁, .cancelled⟩
  | false =>
    have hw₁ := hK _ _ _ _ rfl hw h₁
    refine safe_perform.2 ⟨hKI w₁ hw₁, ?_⟩
    intro loaded w₂ h₂
    cases loaded with
    | error f =>
      -- the store did not answer: planning starts again after a pause, unless that is cancelled
      have hw₂ := hK _ _ _ _ rfl hw₁ h₂
      refine safe_perform.2 ⟨hKI w₂ hw₂, ?_⟩
      intro waited w₃ h₃
      cases waited with
      | false => exact ⟨hK _ _ _ _ rfl hw₂ h₃, .cancelled⟩
      | true => exact ⟨hK _ _ _ _ rfl hw₂ h₃, .again⟩
    | ok c =>
      have hw₂ := hload w₁ c w₂ hw₁ h₂
      refine safe_perform.2 ⟨hKI w₂ (hLK c w₂ hw₂), ?_⟩
      intro now w₃ h₃
      have hw₃ := hclock w₂ c now w₃ hw₂ h₃
      cases hplan : s.planner.plan? c now with
      | none => exact ⟨hMK c now w₃ hw₃, .broken⟩
      | some d =>
          cases hrequest : d.request? s.template with
          | none =>
              simp only [hrequest]
              exact ⟨hMK c now w₃ hw₃, .idle hrequest⟩
          | some request =>
              simp only [hrequest]
              apply (safe_begin (hM c now) (fun w hw => hKI w (hMK c now w hw)) hw₃).bind
              intro tally w₄ hw₄
              exact ⟨hMK c now w₄ hw₄, .paging hplan hrequest hw₄⟩

/-- What is known of the checkpoint that was read is known after planning, if the clock leaves it so. -/
theorem safe_plan {L : Option Checkpoint → ω → Prop} (report : Report) {w : ω} (hKI : ∀ w, K w → I w)
    (hK : Quiet R K) (hL : ∀ c, Quiet R (L c)) (hLK : ∀ c w, L c w → K w)
    (hload : ∀ w c w', K w → R w (.load s.key) (.ok c) w' → L c w') (hw : K w) :
    Safe R I (fun st w => K w ∧ Planned L s report st w) (plan s report) w :=
  safe_plan_at report hKI hK (fun c _ => hL c) hLK (fun c _ => hLK c) hload
    (fun _ c _ _ hw hr => hL c _ _ _ _ rfl hw hr) hw

/--
A stage between two pages. `K` holds between two pages, and `F` from the moment at which there is something to
hand to the sink until the page is flushed and its checkpoint saved.
-/
theorem safe_stage (hquiet : Quiet R K) (hKF : ∀ w, K w → F w)
    (hrequest : ∀ w q limit r w', K w → R w (.request q limit) r w' → K w')
    (hindex : ∀ w d r w', F w → R w (.index d) r w' → F w')
    (hsave : ∀ w request a flushed w₁ saved w₂, F w → R w .flush flushed w₁ →
      R w₁ (.save s.key (checkpointAfter request a flushed)) saved w₂ → K w₂)
    {st : Cycle × Report} {p : Program (Cycle × Report)} (hp : course s st = some p) {w : ω} (hw : K w) :
    p.Safe R (fun _ => True) (fun _ => K) w := by
  have hpaging (request : Request) : Paging R (fun _ => True) K K F (fun _ _ => F) s request :=
    { soundK := fun _ _ => trivial
      soundT := fun _ _ => trivial
      soundJ := fun _ _ _ _ => trivial
      quietK := hquiet
      quietT := hquiet
      again := fun _ hw => hw
      twice := hKF
      cancelled := fun _ _ hw hr => hquiet _ .cancelled _ _ rfl hw hr
      putOff := fun _ _ _ _ hw hr _ => hrequest _ _ _ _ _ hw hr
      failed := fun _ _ _ _ _ hw hr _ => hKF _ (hrequest _ _ _ _ _ hw hr)
      answered := fun _ _ _ hw hr _ => hKF _ (hrequest _ _ _ _ _ hw hr)
      taken := fun _ _ _ _ _ hw _ hr => hindex _ _ _ _ hw hr
      refused := fun _ _ _ _ _ _ hw _ hr => hindex _ _ _ _ hw hr }
  obtain ⟨_ | ⟨tally, request⟩ | _ | _, report⟩ := st
  · cases hp
    refine (safe_plan (L := fun _ => K) report (fun _ _ => trivial) hquiet (fun _ => hquiet) (fun _ _ hw => hw)
      (fun _ _ _ hw hr => hquiet _ (.load s.key) _ _ rfl hw hr) hw).mono ?_
    rintro st w ⟨hw, -⟩
    exact hw
  · cases hp
    refine (safe_page (E := fun _ => K) (N := fun _ _ => K) tally report (hpaging request) hw
      (fun _ _ _ => trivial) (fun _ => hquiet) (fun _ _ _ hw => hw) ?_).mono ?_
    · intro report' a w _ ha
      have hw : F w := by
        cases ha with
        | failed hw => exact hw
        | given _ hw => exact hw
      refine safe_persist.2 ⟨trivial, ?_⟩
      intro flushed w₁ h₁
      refine ⟨trivial, ?_⟩
      intro saved w₂ h₂
      have hw₂ := hsave w request a flushed w₁ saved w₂ hw h₁ h₂
      rw [Dealt]
      split <;> exact hw₂
    · intro st w hst
      cases hst with
      | ended hw => exact hw
      | continued hw => exact hw
  · cases hp
  · cases hp

end Cycle

end Harvesting
