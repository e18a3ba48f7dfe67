import Harvesting.Proofs.Cycle.Finished

/-!
# A cycle goes in turns

A run of a program is the list of what it asked and what it was answered. For a cycle this list is told
as far as requests, flushes and checkpoints go: each page that is dealt with is one turn, which asks for
the page, flushes the sink and saves a checkpoint, in this order. The first turn asks for what was
decided, and each later one for the page that the one before it named.

* `Program.Does` — the events of a run, with its result; `does_bind` takes a run apart where the program
  is put together, and `ends_recorded` ties it to the runs that end;
* `marks` — the requests, flushes and checkpoints among the events;
* `Turn`, `Turn.events` — one page, from its request to its checkpoint; `Turn.Due`, `InTurns` — which turn can
  follow;
* `Cycle.does_plan`, `Cycle.does_page` — what the two stages of a cycle do;
* `Cycle.goes_in_turns` — a cycle goes in turns, whatever it is answered.
-/

namespace Harvesting

/-! ## Events of a program -/

namespace Program

variable {α β : Type}

/-- The program asks and is answered as the events tell, and ends with this result. -/
def Does : Program α → List Event → α → Prop
  | done a, es, b => es = [] ∧ b = a
  | ask e next, es, b => ∃ r es', es = ⟨e, r⟩ :: es' ∧ Does (next r) es' b

@[simp] theorem does_pure {a b : α} {es : List Event} : (pure a : Program α).Does es b ↔ es = [] ∧ b = a :=
  Iff.rfl

theorem does_perform {e : Effect} {f : e.Reply → Program β} {es : List Event} {b : β} :
    (perform e >>= f).Does es b ↔ ∃ r es', es = ⟨e, r⟩ :: es' ∧ (f r).Does es' b := Iff.rfl

theorem does_bind {p : Program α} {f : α → Program β} {es : List Event} {b : β} :
    (p >>= f).Does es b ↔ ∃ es₁ a es₂, es = es₁ ++ es₂ ∧ p.Does es₁ a ∧ (f a).Does es₂ b := by
  induction p generalizing es with
  | done a =>
      constructor
      · intro h
        exact ⟨[], a, es, rfl, ⟨rfl, rfl⟩, h⟩
      · rintro ⟨_, _, es₂, rfl, ⟨rfl, rfl⟩, h⟩
        exact h
  | ask e next ih =>
      show (∃ r es', es = ⟨e, r⟩ :: es' ∧ (next r >>= f).Does es' b) ↔ _
      constructor
      · rintro ⟨r, es', rfl, h⟩
        obtain ⟨es₁, a, es₂, rfl, h₁, h₂⟩ := (ih r).1 h
        exact ⟨⟨e, r⟩ :: es₁, a, es₂, rfl, ⟨r, es₁, rfl, h₁⟩, h₂⟩
      · rintro ⟨_, a, es₂, rfl, ⟨r, es₁, rfl, h₁⟩, h₂⟩
        exact ⟨r, es₁ ++ es₂, rfl, (ih r).2 ⟨es₁, a, es₂, rfl, h₁, h₂⟩⟩

/-- What a recorded run adds to the history are the events of the program. -/
theorem ends_recorded {p : Program α} {log log' : List Event} {a : α} (h : p.Ends Recorded log a log') :
    ∃ es, log' = log ++ es ∧ p.Does es a := by
  induction h with
  | done a log => exact ⟨[], by simp, rfl, rfl⟩
  | ask hr _ ih =>
      obtain ⟨es, rfl, hes⟩ := ih
      rw [Recorded] at hr
      subst hr
      exact ⟨_ :: es, by simp, _, es, rfl, hes⟩

end Program

/-! ## Turns -/

/-- Requests, flushes and checkpoints: what happens once or twice for a page. -/
def Effect.isMark : Effect → Bool
  | .request .. | .flush | .save .. => true
  | _ => false

/-- The requests, flushes and checkpoints among the events. -/
def marks (es : List Event) : List Event := es.filter (·.effect.isMark)

@[simp] theorem marks_nil : marks [] = [] := rfl

@[simp] theorem marks_append (es es' : List Event) : marks (es ++ es') = marks es ++ marks es' :=
  List.filter_append es es'

/-- One page, from its request to its checkpoint. -/
structure Turn where
  request : Request
  /-- The page that put the request off, if one did. -/
  putOff : Option Page
  answer : Except SourceFault Page
  flushed : Except SinkFault Unit
  checkpoint : Checkpoint
  saved : Except Store.Fault Unit

namespace Turn

/-- What a turn does: the request, twice if it was put off, the flush, and the checkpoint. -/
def events (s : CycleSettings) (t : Turn) : List Event :=
  (t.putOff.map fun p => ⟨.request t.request s.timeout, .ok p⟩).toList ++
    [⟨.request t.request s.timeout, t.answer⟩, ⟨.flush, t.flushed⟩, ⟨.save s.key t.checkpoint, t.saved⟩]

/-- The token of the page that was read. -/
def token? (t : Turn) : Option String := t.answer.toOption.bind (·.token)

/--
The checkpoint tells of the window and of the page: it has a token only if it is clean, and then the one
of the page. Only a page that asks to wait puts its request off.
-/
structure Sound (window : Window) (t : Turn) : Prop where
  window : t.checkpoint.window = window
  token : ∀ token, t.checkpoint.token = some token → t.checkpoint.isClean = true ∧ t.token? = some token
  putOff : ∀ p ∈ t.putOff, ∃ wait, Outcome.ofPage p = .throttled wait

end Turn

/-- The request that is due after some turns of a cycle. -/
inductive Turn.Due (s : CycleSettings) (d : Decision) : List Turn → Request → Prop where
  /-- The first request is for what was decided. -/
  | first : d.isWait = false → Turn.Due s d [] { s.template with window := d.window, token := d.token }
  /-- Any other one differs from the one before it in its token only, which the page before it gave. -/
  | next {turns : List Turn} {t : Turn} {token : String} :
      t.token? = some token → Turn.Due s d (turns ++ [t]) { t.request with token := some token }

/-- Each turn is for the request that was due, and it is sound for the window of the decision. -/
inductive InTurns (s : CycleSettings) (d : Decision) : List Turn → Prop where
  | none : InTurns s d []
  | next {turns : List Turn} {t : Turn} :
      InTurns s d turns → Turn.Due s d turns t.request → t.Sound d.window → InTurns s d (turns ++ [t])

/-- All requests of a cycle are for the window of the decision. -/
theorem Turn.Due.window {s : CycleSettings} {d : Decision} {turns : List Turn} {q : Request}
    (hturns : InTurns s d turns) (h : Turn.Due s d turns q) : q.window = d.window := by
  induction hturns generalizing q with
  | none =>
      generalize hnone : ([] : List Turn) = turns at h
      cases h with
      | first _ => rfl
      | next _ => simp at hnone
  | @next turns t _ hdue _ ih =>
      generalize hsome : turns ++ [t] = turns' at h
      cases h with
      | first _ => simp at hsome
      | next _ =>
          obtain ⟨-, hlast⟩ := List.append_inj' hsome rfl
          cases hlast
          show t.request.window = d.window
          exact ih hdue

/-! ## The parts of a cycle -/

namespace Cycle

open Program

variable {s : CycleSettings} {q : Request} {report : Report} {es : List Event}

theorem does_deliver {ds : List Document} {a : Except SinkFault Unit × Report}
    (h : (deliver ds report).Does es a) : marks es = [] ∧ a.2.decision = report.decision := by
  induction ds generalizing report es with
  | nil =>
      obtain ⟨rfl, rfl⟩ := h
      exact ⟨rfl, rfl⟩
  | cons d ds ih =>
      rw [deliver, does_perform] at h
      obtain ⟨r, es', rfl, h⟩ := h
      cases r with
      | ok _ =>
          obtain ⟨hmarks, hdecision⟩ := ih h
          exact ⟨hmarks, hdecision⟩
      | error f =>
          obtain ⟨rfl, rfl⟩ := h
          exact ⟨rfl, rfl⟩

theorem does_route {documents : Record → Except RecordFault (List Document)} {rs : List Record}
    {a : Except SinkFault Unit × Report} (h : (route documents rs report).Does es a) :
    marks es = [] ∧ a.2.decision = report.decision := by
  induction rs generalizing report es with
  | nil =>
      obtain ⟨rfl, rfl⟩ := h
      exact ⟨rfl, rfl⟩
  | cons r rs ih =>
      rw [route] at h
      cases hdocs : documents r with
      | error f =>
          simp only [hdocs] at h
          obtain ⟨hmarks, hdecision⟩ := ih h
          exact ⟨hmarks, hdecision⟩
      | ok ds =>
          simp only [hdocs, does_bind] at h
          obtain ⟨es₁, ⟨taken, report'⟩, es₂, rfl, h₁, h₂⟩ := h
          obtain ⟨hmarks, hdecision⟩ := does_deliver h₁
          cases taken with
          | error f =>
              obtain ⟨rfl, rfl⟩ := h₂
              exact ⟨by simpa using hmarks, hdecision⟩
          | ok _ =>
              obtain ⟨hmarks', hdecision'⟩ := ih h₂
              exact ⟨by simp [hmarks, hmarks'], hdecision'.trans hdecision⟩

/-- An answer is settled without a request; what it leads to next is the token of its page. -/
theorem does_settle {answer : Except SourceFault Page} {a : Attempt × Report}
    (h : (settle s answer report).Does es a) : marks es = [] ∧ a.2.decision = report.decision ∧
      ∀ token, a.1.token = some token → answer.toOption.bind (·.token) = some token := by
  have hnone {answer : Except SourceFault Page} (token : String) (htoken : none = some token) :
      answer.toOption.bind (·.token) = some token := by cases htoken
  rcases answer with f | p
  · obtain ⟨rfl, rfl⟩ := h
    exact ⟨rfl, rfl, hnone⟩
  · rw [settle] at h
    cases hp : Outcome.ofPage p with
    | failed status e =>
        simp only [hp] at h
        obtain ⟨rfl, rfl⟩ := h
        exact ⟨rfl, rfl, hnone⟩
    | throttled wait =>
        simp only [hp] at h
        obtain ⟨rfl, rfl⟩ := h
        exact ⟨rfl, rfl, hnone⟩
    | success =>
        simp only [hp, does_bind] at h
        obtain ⟨es₁, ⟨routed, report'⟩, es₂, rfl, h₁, h₂⟩ := h
        obtain ⟨hmarks, hdecision⟩ := does_route h₁
        cases routed with
        | error f =>
            obtain ⟨rfl, rfl⟩ := h₂
            exact ⟨by simpa using hmarks, hdecision, hnone⟩
        | ok _ =>
            obtain ⟨rfl, rfl⟩ := h₂
            exact ⟨by simpa using hmarks, hdecision, fun _ ht => ht⟩

/-- What the requests for one page come to. -/
inductive Requested (s : CycleSettings) (q : Request) : List Event → Option Attempt → Prop where
  /-- The harvest was cancelled while the request was put off. -/
  | cancelled {p : Page} {wait : Span} : Outcome.ofPage p = .throttled wait →
      Requested s q [⟨.request q s.timeout, .ok p⟩] none
  | answered {putOff : Option Page} {answer : Except SourceFault Page} {a : Attempt} :
      (∀ p ∈ putOff, ∃ wait, Outcome.ofPage p = .throttled wait) →
      (∀ token, a.token = some token → answer.toOption.bind (·.token) = some token) →
      Requested s q ((putOff.map fun p => ⟨.request q s.timeout, .ok p⟩).toList ++
        [⟨.request q s.timeout, answer⟩]) (some a)

theorem does_ask {a : Except SourceFault Page × Report} (h : (ask s q report).Does es a) :
    es = [⟨.request q s.timeout, a.1⟩] ∧ a.2.decision = report.decision := by
  obtain ⟨answer, _, rfl, rfl, rfl⟩ := h
  exact ⟨rfl, rfl⟩

/-- An answer that is settled at once, after a page that put the request off or none. -/
theorem requested_of_settle {putOff : Option Page} {answer : Except SourceFault Page} {a : Option Attempt × Report}
    (hputOff : ∀ p ∈ putOff, ∃ wait, Outcome.ofPage p = .throttled wait)
    (h : (settle s answer report >>= fun a => pure (some a.1, a.2)).Does es a) :
    Requested s q ((putOff.map fun p => ⟨.request q s.timeout, .ok p⟩).toList ++
      ⟨.request q s.timeout, answer⟩ :: marks es) a.1 ∧ a.2.decision = report.decision := by
  rw [does_bind] at h
  obtain ⟨es₁, ⟨a', report'⟩, es₂, rfl, h₁, rfl, rfl⟩ := h
  obtain ⟨hmarks, hdecision, htoken⟩ := does_settle h₁
  rw [List.append_nil, hmarks]
  exact ⟨.answered hputOff htoken, hdecision⟩

theorem does_attempt {a : Option Attempt × Report} (h : (attempt s q report).Does es a) :
    Requested s q (marks es) a.1 ∧ a.2.decision = report.decision := by
  rw [attempt, does_bind] at h
  obtain ⟨es₁, ⟨answer, report₁⟩, es₂, rfl, h₁, h⟩ := h
  obtain ⟨rfl, hdecision₁⟩ := does_ask h₁
  -- settled at once, unless the answer asks to wait
  have hsettled (h : (settle s answer report₁ >>= fun a => pure (some a.1, a.2)).Does es₂ a) :
      Requested s q (marks ([⟨.request q s.timeout, answer⟩] ++ es₂)) a.1 ∧ a.2.decision = report.decision := by
    have hnone : ∀ p ∈ (none : Option Page), ∃ wait, Outcome.ofPage p = .throttled wait := nofun
    obtain ⟨hrequested, hdecision⟩ := requested_of_settle (q := q) hnone h
    exact ⟨hrequested, hdecision.trans hdecision₁⟩
  cases houtcome : Outcome.of answer with
  | success =>
      simp only [houtcome] at h
      exact hsettled h
  | failed status e =>
      simp only [houtcome] at h
      exact hsettled h
  | throttled wait =>
      simp only [houtcome] at h
      rw [does_perform] at h
      obtain ⟨waited, es₃, rfl, h⟩ := h
      rcases answer with f | p
      · cases houtcome
      cases waited with
      | false =>
          obtain ⟨rfl, rfl⟩ := h
          exact ⟨.cancelled houtcome, hdecision₁⟩
      | true =>
          rw [if_pos rfl, does_bind] at h
          obtain ⟨es₄, ⟨answer', report₂⟩, es₅, rfl, h₄, h⟩ := h
          obtain ⟨rfl, hdecision₂⟩ := does_ask h₄
          have hthrottled : ∀ p' ∈ some p, ∃ wait, Outcome.ofPage p' = .throttled wait := by
            rintro _ ⟨⟩
            exact ⟨wait, houtcome⟩
          obtain ⟨hrequested, hdecision₃⟩ := requested_of_settle (q := q) hthrottled h
          exact ⟨hrequested, (hdecision₃.trans hdecision₂).trans hdecision₁⟩

theorem does_finish {tally : Tally} {st : Cycle × Report} (h : (finish s tally report).Does es st) :
    marks es = [] ∧ st = (.ended, report) := by
  obtain ⟨now, _, rfl, saved, _, rfl, rfl, rfl⟩ := h
  exact ⟨rfl, rfl⟩

theorem does_begin {tally : Tally} (h : (begin s).Does es tally) : marks es = [] := by
  obtain ⟨kept, _, rfl, now, _, rfl, saved, _, rfl, rfl, rfl⟩ := h
  rfl

/-! ## The stages of a cycle -/

/-- What the stage of a page does, and the stage after it. -/
inductive Turned (s : CycleSettings) (q : Request) : List Event → Cycle → Prop where
  | cancelled : Turned s q [] .ended
  | putOff {p : Page} {wait : Span} : Outcome.ofPage p = .throttled wait →
      Turned s q [⟨.request q s.timeout, .ok p⟩] .ended
  | last {t : Turn} : t.request = q → t.Sound q.window → Turned s q (t.events s) .ended
  | next {t : Turn} {tally : Tally} {token : String} : t.request = q → t.Sound q.window →
      t.token? = some token → Turned s q (t.events s) (.paging tally { q with token := some token })

/-- A page that was answered is flushed and saved: that is its turn. -/
theorem does_persist {putOff : Option Page} {answer : Except SourceFault Page} {a a' : Attempt}
    (hputOff : ∀ p ∈ putOff, ∃ wait, Outcome.ofPage p = .throttled wait)
    (htoken : ∀ token, a.token = some token → answer.toOption.bind (·.token) = some token)
    (h : (persist s q a).Does es a') :
    ∃ t : Turn, t.request = q ∧ t.Sound q.window ∧ (∀ token, a'.token = some token → t.token? = some token) ∧
      t.events s = (putOff.map fun p => ⟨.request q s.timeout, .ok p⟩).toList ++
        [⟨.request q s.timeout, answer⟩] ++ marks es := by
  obtain ⟨flushed, _, rfl, saved, _, rfl, rfl, rfl⟩ := h
  refine ⟨⟨q, putOff, answer, flushed, checkpointAfter q a flushed, saved⟩, rfl, ⟨rfl, ?_, hputOff⟩, ?_, ?_⟩
  · intro token hsome
    obtain ⟨hclean, hpage⟩ := clean_of_tokenAfter hsome
    exact ⟨hclean, htoken token hpage⟩
  · intro token hsome
    have hclean : (checkpointAfter q a flushed).isClean = true ∧ _ := clean_of_tokenAfter hsome
    exact htoken token hclean.2
  · rw [Turn.events, List.append_assoc]
    rfl

theorem does_page {tally : Tally} {st : Cycle × Report} (h : (page s tally q report).Does es st) :
    Turned s q (marks es) st.1 ∧ st.2.decision = report.decision := by
  rw [page, does_perform] at h
  obtain ⟨stopped, es₁, rfl, h⟩ := h
  show Turned s q (marks es₁) st.1 ∧ _
  cases stopped with
  | true =>
      obtain ⟨hmarks, rfl⟩ := does_finish h
      rw [hmarks]
      exact ⟨.cancelled, rfl⟩
  | false =>
      rw [if_neg (by decide), does_bind] at h
      obtain ⟨es₂, ⟨a, report₁⟩, es₃, rfl, h₂, h⟩ := h
      obtain ⟨hrequested, hdecision⟩ := does_attempt h₂
      rw [marks_append]
      generalize marks es₂ = requests at hrequested
      cases hrequested with
      | cancelled hwait =>
          obtain ⟨hmarks, rfl⟩ := does_finish h
          rw [hmarks]
          exact ⟨.putOff hwait, hdecision⟩
      | @answered putOff answer a hputOff htoken =>
          rw [does_bind] at h
          obtain ⟨es₄, ⟨status, error, token⟩, es₅, rfl, h₄, h⟩ := h
          obtain ⟨t, hrequest, hsound, hnext, hevents⟩ := does_persist hputOff htoken h₄
          rw [marks_append, ← List.append_assoc, ← hevents]
          -- a fault ends the cycle, and so does a page without a token
          cases error with
          | some e =>
              obtain ⟨hmarks, rfl⟩ := does_finish h
              rw [hmarks, List.append_nil]
              exact ⟨.last hrequest hsound, hdecision⟩
          | none =>
              cases token with
              | none =>
                  obtain ⟨hmarks, rfl⟩ := does_finish h
                  rw [hmarks, List.append_nil]
                  exact ⟨.last hrequest hsound, hdecision⟩
              | some token =>
                  obtain ⟨rfl, rfl⟩ := h
                  rw [marks_nil, List.append_nil]
                  exact ⟨.next hrequest hsound (hnext token rfl), hdecision⟩

/-- A checkpoint and the time were read, one after the other, and the decision was made of the two. -/
def Decided (s : CycleSettings) (es : List Event) (d : Decision) : Prop :=
  ∃ before c now after, es = before ++ ⟨.load s.key, .ok c⟩ :: ⟨.clock, now⟩ :: after ∧
    s.planner.plan? c now = some d

theorem Decided.append {d : Decision} (h : Decided s es d) (es' : List Event) : Decided s (es ++ es') d := by
  obtain ⟨before, c, now, after, rfl, hplan⟩ := h
  exact ⟨before, c, now, after ++ es', by simp, hplan⟩

theorem Decided.prepend {d : Decision} (h : Decided s es d) (log : List Event) : Decided s (log ++ es) d := by
  obtain ⟨before, c, now, after, rfl, hplan⟩ := h
  exact ⟨log ++ before, c, now, after, by simp, hplan⟩

/-- The stage after planning. -/
inductive Scheduled (s : CycleSettings) (report : Report) (es : List Event) : Cycle × Report → Prop where
  | again : Scheduled s report es (.planning, report)
  | cancelled : Scheduled s report es (.ended, report.cancel)
  | broken : Scheduled s report es (.broken, report)
  | idle {d : Decision} : Decided s es d → d.request? s.template = none →
      Scheduled s report es (.ended, { report with decision := some d })
  | paging {tally : Tally} {d : Decision} {q : Request} : Decided s es d → d.request? s.template = some q →
      Scheduled s report es (.paging tally q, { report with decision := some d })

theorem does_plan {st : Cycle × Report} (h : (plan s report).Does es st) :
    marks es = [] ∧ Scheduled s report es st := by
  obtain ⟨stopped, es₁, rfl, h⟩ := h
  cases stopped with
  | true =>
      obtain ⟨rfl, rfl⟩ := h
      exact ⟨rfl, .cancelled⟩
  | false =>
    obtain ⟨loaded, es₂, rfl, h⟩ := h
    cases loaded with
    | error f =>
        obtain ⟨waited, es₃, rfl, h⟩ := h
        cases waited with
        | false =>
            obtain ⟨rfl, rfl⟩ := h
            exact ⟨rfl, .cancelled⟩
        | true =>
            obtain ⟨rfl, rfl⟩ := h
            exact ⟨rfl, .again⟩
    | ok c =>
        replace h := does_perform.1 h
        obtain ⟨now, es₃, rfl, h⟩ := h
        cases hplan : s.planner.plan? c now with
        | none =>
            simp only [hplan] at h
            obtain ⟨rfl, rfl⟩ := h
            exact ⟨rfl, .broken⟩
        | some d =>
            have hdecided (after : List Event) :
                Decided s (⟨.cancelled, false⟩ :: ⟨.load s.key, .ok c⟩ :: ⟨.clock, now⟩ :: after) d :=
              ⟨[⟨.cancelled, false⟩], c, now, after, rfl, hplan⟩
            cases hrequest : d.request? s.template with
            | none =>
                simp only [hplan, hrequest] at h
                obtain ⟨rfl, rfl⟩ := h
                exact ⟨rfl, .idle (hdecided []) hrequest⟩
            | some q =>
                simp only [hplan, hrequest, does_bind] at h
                obtain ⟨es₄, tally, _, rfl, h₄, rfl, rfl⟩ := h
                have hmarks : marks es₄ = [] := does_begin h₄
                refine ⟨?_, .paging (hdecided _) hrequest⟩
                rw [List.append_nil]
                exact hmarks

/-! ## The whole cycle -/

/--
What a cycle did after the decision: its turns, and after them at most one request that was due and that
the repository put off.
-/
def WentInTurns (s : CycleSettings) (d : Decision) (log : List Event) : Prop :=
  Decided s log d ∧ ∃ turns rest, marks log = turns.flatMap (Turn.events s) ++ rest ∧ InTurns s d turns ∧
    (rest = [] ∨ ∃ q p wait, rest = [⟨.request q s.timeout, .ok p⟩] ∧ Turn.Due s d turns q ∧
      Outcome.ofPage p = .throttled wait)

/-- A cycle before a stage, with the request that is due if there is one. -/
def TurnsAt (s : CycleSettings) : Cycle × Report → List Event → Prop
  | (.planning, report), log => report.decision = none ∧ marks log = []
  | (.paging _ q, report), log => ∃ d turns, report.decision = some d ∧ Decided s log d ∧
      marks log = turns.flatMap (Turn.events s) ∧ InTurns s d turns ∧ Turn.Due s d turns q
  | (_, report), log => (report.decision = none ∧ marks log = []) ∨
      ∃ d, report.decision = some d ∧ WentInTurns s d log

variable {log log' : List Event}

/-- Turns that nothing follows. -/
theorem wentInTurns {d : Decision} {turns : List Turn} (hdecided : Decided s log d)
    (htold : marks log = turns.flatMap (Turn.events s)) (hturns : InTurns s d turns) : WentInTurns s d log :=
  ⟨hdecided, turns, [], by simpa using htold, hturns, .inl rfl⟩

theorem turnsAt_plan {st : Cycle × Report} (hdecision : report.decision = none) (hlog : marks log = [])
    (h : (plan s report).Does es st) : TurnsAt s st (log ++ es) := by
  obtain ⟨hmarks, hscheduled⟩ := does_plan h
  have hnone : marks (log ++ es) = [] := by simp [hlog, hmarks]
  cases hscheduled with
  | again => exact ⟨hdecision, hnone⟩
  | cancelled => exact .inl ⟨hdecision, hnone⟩
  | broken => exact .inl ⟨hdecision, hnone⟩
  | idle hdecided _ =>
      have htold : marks (log ++ es) = [].flatMap (Turn.events s) := hnone
      exact .inr ⟨_, rfl, wentInTurns (hdecided.prepend log) htold .none⟩
  | @paging tally d q hdecided hrequest =>
      refine ⟨d, [], rfl, hdecided.prepend log, hnone, .none, ?_⟩
      cases hwait : d.isWait with
      | true =>
          cases d <;> cases hwait
          cases hrequest
      | false =>
          rw [Decision.eq_of_request? hrequest]
          exact .first hwait

theorem turnsAt_page {tally : Tally} {d : Decision} {turns : List Turn} {st : Cycle × Report}
    (hdecision : report.decision = some d) (hdecided : Decided s log d)
    (htold : marks log = turns.flatMap (Turn.events s)) (hturns : InTurns s d turns) (hdue : Turn.Due s d turns q)
    (h : (page s tally q report).Does es st) : TurnsAt s st (log ++ es) := by
  obtain ⟨st, report'⟩ := st
  obtain ⟨hturned, hreport⟩ := does_page h
  have hdecision' : report'.decision = some d := hreport.trans hdecision
  have hdecided' := hdecided.append es
  have hmarks : marks (log ++ es) = turns.flatMap (Turn.events s) ++ marks es := by rw [marks_append, htold]
  -- a turn that was taken was due, and its checkpoint tells of the window that the request is for
  have hnext {t : Turn} (hrequest : t.request = q) (hsound : t.Sound q.window) : InTurns s d (turns ++ [t]) := by
    rw [hdue.window hturns] at hsound
    rw [← hrequest] at hdue
    exact .next hturns hdue hsound
  have htold' {t : Turn} (ht : marks es = t.events s) :
      marks (log ++ es) = (turns ++ [t]).flatMap (Turn.events s) := by simp [hmarks, ht]
  generalize hes : marks es = told at hturned
  cases hturned with
  | cancelled =>
      rw [hes, List.append_nil] at hmarks
      exact .inr ⟨d, hdecision', wentInTurns hdecided' hmarks hturns⟩
  | @putOff p wait hwait =>
      rw [hes] at hmarks
      exact .inr ⟨d, hdecision', hdecided', turns, _, hmarks, hturns, .inr ⟨q, p, wait, rfl, hdue, hwait⟩⟩
  | last hrequest hsound =>
      exact .inr ⟨d, hdecision', wentInTurns hdecided' (htold' hes) (hnext hrequest hsound)⟩
  | @next t _ token hrequest hsound htoken =>
      refine ⟨d, turns ++ [t], hdecision', hdecided', htold' hes, hnext hrequest hsound, ?_⟩
      rw [← hrequest]
      exact .next htoken

/-- One stage keeps to the turns. -/
theorem turnsAt_stage {st st' : Cycle × Report} {p : Program (Cycle × Report)} (h : TurnsAt s st log)
    (hp : course s st = some p) (hend : p.Ends Recorded log st' log') : TurnsAt s st' log' := by
  obtain ⟨es, rfl, hdoes⟩ := ends_recorded hend
  rcases st with ⟨_ | ⟨tally, q⟩ | _ | _, report⟩
  · cases hp
    exact turnsAt_plan h.1 h.2 hdoes
  · cases hp
    obtain ⟨d, turns, hdecision, hdecided, htold, hturns, hdue⟩ := h
    exact turnsAt_page hdecision hdecided htold hturns hdue hdoes
  · cases hp
  · cases hp

/-- What was done at a stage was done in turns, also if the cycle is to go on from it. -/
theorem TurnsAt.told {st : Cycle × Report} (h : TurnsAt s st log) :
    (st.2.decision = none ∧ marks log = []) ∨ ∃ d, st.2.decision = some d ∧ WentInTurns s d log := by
  rcases st with ⟨_ | ⟨tally, q⟩ | _ | _, report⟩
  · exact .inl h
  · obtain ⟨d, turns, hdecision, hdecided, htold, hturns, -⟩ := h
    exact .inr ⟨d, hdecision, wentInTurns hdecided htold hturns⟩
  · exact h
  · exact h

/--
A cycle goes in turns, whatever it is answered. Before a decision nothing is requested, flushed or saved.
The decision is made of the checkpoint that was read and the time of day. The first turn asks for what was
decided, and each other one differs from the turn before it in its token only, which is the token of the
page before it. A turn is the request, the flush and the checkpoint, in this order; the checkpoint has the
bounds of the decision, and a token only if it is clean, which is then the one of the page. Where a request
has a token, it has no other argument.
-/
theorem goes_in_turns {st : Cycle × Report} (hrun : (course s).Leads Recorded start [] st log) :
    (st.2.decision = none → marks log = []) ∧
    (∀ d, st.2.decision = some d → WentInTurns s d log) ∧
    ∀ (q : Request) (token : String), q.token = some token →
      q.queryPairs = [("verb", "ListRecords"), ("resumptionToken", token)] := by
  have hturns : TurnsAt s st log :=
    hrun.keeps (fun _ _ _ _ _ h hp hend => turnsAt_stage h hp hend) ⟨rfl, rfl⟩
  refine ⟨?_, ?_, ?_⟩
  · intro hnone
    rcases hturns.told with ⟨-, hmarks⟩ | ⟨d, hd, -⟩
    · exact hmarks
    · cases hnone.symm.trans hd
  · intro d hd
    rcases hturns.told with ⟨hnone, -⟩ | ⟨d', hd', hwent⟩
    · cases hnone.symm.trans hd
    · cases hd.symm.trans hd'
      exact hwent
  · intro q token htoken
    rw [Request.queryPairs, htoken]

/-- The sample, two pages of it; the second one is asked for with the token of the first. -/
def sampleTurns : (Cycle × Report) × Surroundings MemoryStore :=
  (course Surroundings.sample).follow (Surroundings.calm (fun q => .ok (Surroundings.samplePage q.token)) ⟨0, 0⟩) 3
    start Surroundings.sampleStart

theorem goes_in_turns_sample :
    sampleTurns.1.2.decision = some (.first ⟨none, none⟩) ∧ (marks sampleTurns.2.log).length = 6 ∧
      sampleTurns.2.exchanges.map (·.1) =
        [Surroundings.sample.template, { Surroundings.sample.template with token := some "more" }] ∧
      WentInTurns Surroundings.sample (.first ⟨none, none⟩) sampleTurns.2.log ∧
      ∀ q ∈ sampleTurns.2.exchanges.map (·.1), q.token = some "more" →
        q.queryPairs = [("verb", "ListRecords"), ("resumptionToken", "more")] := by
  have hcalm : (course Surroundings.sample).Leads (Surroundings.Replies fun _ _ => True) start
      Surroundings.sampleStart sampleTurns.1 sampleTurns.2 :=
    Course.leads_follow (Surroundings.replies_calm (fun _ => trivial) ⟨0, 0⟩) 3 start Surroundings.sampleStart
  have hrun : (course Surroundings.sample).Leads Recorded start [] sampleTurns.1 sampleTurns.2.log :=
    hcalm.map Surroundings.log fun _ _ _ _ h => h.1
  have hdecision : sampleTurns.1.2.decision = some (.first ⟨none, none⟩) := by decide +kernel
  obtain ⟨-, hturns, hpairs⟩ := goes_in_turns hrun
  exact ⟨hdecision, by decide +kernel, by decide +kernel, hturns _ hdecision, fun q _ => hpairs q "more"⟩

end Cycle

end Harvesting
