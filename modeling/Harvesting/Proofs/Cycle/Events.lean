import Harvesting.Proofs.Cycle.Turns

/-!
# The events of a cycle

A run, whatever its surroundings are, is a list of events that the course does and that the surroundings
answer one after the other. What a course does can so be told without its surroundings, and what the
surroundings come to without the course.

* `Trace` — surroundings that answer some events; `Trace.keeps` — what no event changes; `Trace.filter` — the
  events that change something;
* `Course.Does` — the events of a run through stages; `Course.Leads.trace` — every run has them;
* `Cycle.Planning`, `Cycle.does_planning` — the stage before the first page, event by event;
* `Cycle.Closes`, `Cycle.does_closes` — the end of a cycle that had a page;
* `requests`, `Report.Counts` — the requests among the events, and a report that counts them;
* `Cycle.Try`, `Cycle.does_tries` — the requests for one page, with what the last answer comes to;
* `Cycle.Goes`, `Cycle.does_goes` — the ways in which the stage of a page can go;
* `Cycle.Handled`, `Cycle.does_visits` — the whole stage of a page, event by event.
-/

namespace Harvesting

variable {ω α σ : Type} {R : Answers ω}

/-! ## Events and their surroundings -/

/-- The surroundings answer the events one after the other. -/
inductive Trace (R : Answers ω) : ω → List Event → ω → Prop where
  | nil (w : ω) : Trace R w [] w
  | cons {w w' w'' : ω} {e : Effect} {r : e.Reply} {es : List Event} :
      R w e r w' → Trace R w' es w'' → Trace R w (⟨e, r⟩ :: es) w''

namespace Trace

theorem append {w w' w'' : ω} {es es' : List Event} (h : Trace R w es w') (h' : Trace R w' es' w'') :
    Trace R w (es ++ es') w'' := by
  induction h with
  | nil w => exact h'
  | cons hr _ ih => exact .cons hr (ih h')

theorem uncons {w w'' : ω} {e : Effect} {r : e.Reply} {es : List Event} (h : Trace R w (⟨e, r⟩ :: es) w'') :
    ∃ w', R w e r w' ∧ Trace R w' es w'' := by
  cases h with
  | cons hr hrest => exact ⟨_, hr, hrest⟩

/-- What can be seen of the surroundings is the same at the end if no event changes it. -/
theorem keeps {β : Type} {view : ω → β} {w w' : ω} {es : List Event} (h : Trace R w es w')
    (hview : ∀ w e r w', ⟨e, r⟩ ∈ es → R w e r w' → view w' = view w) : view w' = view w := by
  induction h with
  | nil w => rfl
  | cons hr _ ih =>
      have hrest := ih fun w e r w' hmem => hview w e r w' (List.mem_cons_of_mem _ hmem)
      rw [hrest, hview _ _ _ _ List.mem_cons_self hr]

/-- What can be seen of the surroundings answers the same events. -/
theorem map {ω' : Type} {R' : Answers ω'} {w w' : ω} {es : List Event} (view : ω → ω') (h : Trace R w es w')
    (hview : ∀ w e r w', R w e r w' → R' (view w) e r (view w')) : Trace R' (view w) es (view w') := by
  induction h with
  | nil w => exact .nil _
  | cons hr _ ih => exact .cons (hview _ _ _ _ hr) ih

/-- Events that change nothing can be left out. -/
theorem filter {w w' : ω} {es : List Event} (keep : Event → Bool) (h : Trace R w es w')
    (hskip : ∀ w e r w', keep ⟨e, r⟩ = false → R w e r w' → w' = w) : Trace R w (es.filter keep) w' := by
  induction h with
  | nil w => exact .nil w
  | @cons w w' w'' e r es hr _ ih =>
      cases hkeep : keep ⟨e, r⟩ with
      | true =>
          rw [List.filter_cons_of_pos hkeep]
          exact .cons hr ih
      | false =>
          obtain rfl := hskip _ _ _ _ hkeep hr
          rw [List.filter_cons_of_neg (by simp [hkeep])]
          exact ih

/-- A history that records all events is the one that ends with them. -/
theorem recorded {log log' es : List Event} (h : Trace Recorded log es log') : log' = log ++ es := by
  induction h with
  | nil log => rw [List.append_nil]
  | cons hr _ ih =>
      rw [Recorded] at hr
      rw [ih, hr, List.append_assoc, List.singleton_append]

end Trace

/-- A run of a program to its end is a trace of the events that the program does. -/
theorem Program.Ends.trace {p : Program α} {w w' : ω} {a : α} (h : p.Ends R w a w') :
    ∃ es, Trace R w es w' ∧ p.Does es a := by
  induction h with
  | done a w => exact ⟨[], .nil w, rfl, rfl⟩
  | ask hr _ ih =>
      obtain ⟨es, htrace, hdoes⟩ := ih
      exact ⟨_, .cons hr htrace, _, es, rfl, hdoes⟩

/-- Whatever a program is answered, there are surroundings that answer so. -/
theorem Program.Does.ends {p : Program α} {es : List Event} {a : α} (h : p.Does es a) :
    p.Ends (fun (_ : Unit) _ _ _ => True) () a () := by
  induction p generalizing es with
  | done b =>
      obtain ⟨-, rfl⟩ := h
      exact .done a ()
  | ask e next ih =>
      obtain ⟨r, es', -, h⟩ := h
      exact .ask trivial (ih r h)

/-- The course does the events, from one stage to another. -/
inductive Course.Does (c : Course σ) : σ → List Event → σ → Prop where
  | refl (st : σ) : Does c st [] st
  | stage {st st' st'' : σ} {p : Program σ} {es es' : List Event} :
      c st = some p → p.Does es st' → Does c st' es' st'' → Does c st (es ++ es') st''

namespace Course

variable {c : Course σ} {st st' : σ}

theorem Leads.trace {w w' : ω} (h : c.Leads R st w st' w') : ∃ es, Trace R w es w' ∧ c.Does st es st' := by
  induction h with
  | refl st w => exact ⟨[], .nil w, .refl st⟩
  | stage hp hend _ ih =>
      obtain ⟨es, htrace, hdoes⟩ := hend.trace
      obtain ⟨es', htrace', hdoes'⟩ := ih
      exact ⟨es ++ es', htrace.append htrace', .stage hp hdoes hdoes'⟩

theorem Does.snoc {st'' : σ} {p : Program σ} {es es' : List Event} (h : c.Does st es st') (hp : c st' = some p)
    (hdoes : p.Does es' st'') : c.Does st (es ++ es') st'' := by
  induction h with
  | refl st =>
      have hlast := Does.stage hp hdoes (.refl st'')
      rwa [List.append_nil] at hlast
  | stage hq hfirst _ ih =>
      rw [List.append_assoc]
      exact .stage hq hfirst (ih hp)

/-- A property of the stages and of the events so far that every stage keeps. -/
theorem Does.keeps {Inv : σ → List Event → Prop} {log es : List Event} (h : c.Does st es st')
    (hstage : ∀ st log p es st', Inv st log → c st = some p → p.Does es st' → Inv st' (log ++ es))
    (hst : Inv st log) : Inv st' (log ++ es) := by
  induction h generalizing log with
  | refl st => simpa using hst
  | stage hp hdoes _ ih =>
      rw [← List.append_assoc]
      exact ih (hstage _ _ _ _ _ hst hp hdoes)

/-- What every stage keeps and what holds before any event, holds of all the events. -/
theorem Does.invariant {Inv : σ → List Event → Prop} {es : List Event} (h : c.Does st es st')
    (hstage : ∀ st log p es st', Inv st log → c st = some p → p.Does es st' → Inv st' (log ++ es))
    (hst : Inv st []) : Inv st' es :=
  h.keeps hstage hst

end Course

/-! ## The stage before the first page -/

namespace Cycle

open Program

variable {s : CycleSettings} {report : Report} {es : List Event} {st : Cycle × Report}

/-- What planning does, and the stage after it. -/
inductive Planning (s : CycleSettings) (report : Report) : List Event → Cycle × Report → Prop where
  | stopped : Planning s report [⟨.cancelled, true⟩] (.ended, report.cancel)
  | again {f : Store.Fault} : Planning s report
      [⟨.cancelled, false⟩, ⟨.load s.key, .error f⟩, ⟨.pause s.cooldown, true⟩] (.planning, report)
  | cut {f : Store.Fault} : Planning s report
      [⟨.cancelled, false⟩, ⟨.load s.key, .error f⟩, ⟨.pause s.cooldown, false⟩] (.ended, report.cancel)
  | broken {c : Option Checkpoint} {now : Instant} : s.planner.plan? c now = none → Planning s report
      [⟨.cancelled, false⟩, ⟨.load s.key, .ok c⟩, ⟨.clock, now⟩] (.broken, report)
  | idle {c : Option Checkpoint} {now : Instant} {d : Decision} : s.planner.plan? c now = some d →
      d.request? s.template = none → Planning s report
      [⟨.cancelled, false⟩, ⟨.load s.key, .ok c⟩, ⟨.clock, now⟩] (.ended, { report with decision := some d })
  | paging {c : Option Checkpoint} {now begun : Instant} {d : Decision} {q : Request}
      {kept : Except Store.Fault Tally} {tally : Tally} {written : Except Store.Fault Unit} :
      s.planner.plan? c now = some d → d.request? s.template = some q → Planning s report
      [⟨.cancelled, false⟩, ⟨.load s.key, .ok c⟩, ⟨.clock, now⟩, ⟨.loadTally s.key, kept⟩, ⟨.clock, begun⟩,
        ⟨.saveTally s.key tally, written⟩] (.paging tally q, { report with decision := some d })

/-- Planning touches neither the repository nor the sink nor the checkpoint. -/
theorem Planning.quiet (h : Planning s report es st) : ∀ ev ∈ es, ev.effect.isQuiet = true := by
  intro ev hmem
  cases h <;> simp only [List.mem_cons, List.not_mem_nil, or_false] at hmem <;>
    rcases hmem with rfl | rfl | rfl | rfl | rfl | rfl <;> rfl

theorem does_planning (h : (plan s report).Does es st) : Planning s report es st := by
  obtain ⟨stopped, es₁, rfl, h⟩ := h
  cases stopped with
  | true =>
      obtain ⟨rfl, rfl⟩ := h
      exact .stopped
  | false =>
    obtain ⟨loaded, es₂, rfl, h⟩ := h
    cases loaded with
    | error f =>
        obtain ⟨waited, es₃, rfl, h⟩ := h
        cases waited with
        | false =>
            obtain ⟨rfl, rfl⟩ := h
            exact .cut
        | true =>
            obtain ⟨rfl, rfl⟩ := h
            exact .again
    | ok c =>
        replace h := does_perform.1 h
        obtain ⟨now, es₃, rfl, h⟩ := h
        cases hplan : s.planner.plan? c now with
        | none =>
            simp only [hplan] at h
            obtain ⟨rfl, rfl⟩ := h
            exact .broken hplan
        | some d =>
            cases hrequest : d.request? s.template with
            | none =>
                simp only [hplan, hrequest] at h
                obtain ⟨rfl, rfl⟩ := h
                exact .idle hplan hrequest
            | some q =>
                simp only [hplan, hrequest, does_bind] at h
                obtain ⟨es₄, tally, _, rfl, h₄, rfl, rfl⟩ := h
                obtain ⟨kept, _, rfl, begun, _, rfl, written, _, rfl, rfl, rfl⟩ := h₄
                exact .paging hplan hrequest

/-! ## The end of a cycle -/

/-- What is done when a cycle that had a decision ends: its tally is written. -/
def Closes (s : CycleSettings) (es : List Event) : Prop :=
  ∃ now tally written, es = [⟨.clock, now⟩, ⟨.saveTally s.key tally, written⟩]

theorem does_closes {tally : Tally} (h : (finish s tally report).Does es st) :
    Closes s es ∧ st = (.ended, report) := by
  obtain ⟨now, _, rfl, written, _, rfl, rfl, rfl⟩ := h
  exact ⟨⟨now, _, written, rfl⟩, rfl⟩

end Cycle

/-! ## Requests and their answers -/

/-- The event is a request. -/
def Event.isRequest : Event → Bool
  | ⟨.request .., _⟩ => true
  | _ => false

/-- The number of requests among the events. -/
def requests (es : List Event) : Nat := es.countP Event.isRequest

@[simp] theorem requests_nil : requests [] = 0 := rfl

@[simp] theorem requests_cons (ev : Event) (es : List Event) :
    requests (ev :: es) = requests es + if ev.isRequest then 1 else 0 :=
  List.countP_cons

@[simp] theorem requests_append (es es' : List Event) : requests (es ++ es') = requests es + requests es' :=
  List.countP_append

theorem requests_eq_zero {es : List Event} (h : ∀ ev ∈ es, ev.isRequest = false) : requests es = 0 := by
  rw [requests, List.countP_eq_zero]
  intro ev hmem
  rw [h ev hmem]
  exact Bool.false_ne_true

/-- The page asks to be left alone for so long: it has the status 429 or 503, and it says how long. -/
def Page.Throttles (p : Page) (wait : Span) : Prop :=
  (p.status = 429 ∨ p.status = 503) ∧ p.retryAfter = some wait

theorem Outcome.ofPage_throttled {p : Page} {wait : Span} : ofPage p = .throttled wait ↔ p.Throttles wait := by
  have hstatus : p.status ∈ throttleStatuses ↔ p.status = 429 ∨ p.status = 503 := by simp [throttleStatuses]
  rw [ofPage, Page.Throttles]
  constructor
  · intro h
    split at h
    · split at h
      · split at h <;> cases h
      · cases h
    · split at h
      · next wait' hwait =>
        split at h
        · next hmem =>
          cases h
          exact ⟨hstatus.1 hmem, hwait⟩
        · cases h
      · cases h
  · rintro ⟨hthrottle, hwait⟩
    rw [if_neg (by omega), hwait]
    exact if_pos (hstatus.2 hthrottle)

theorem Outcome.of_throttled {answer : Except SourceFault Page} {wait : Span} :
    of answer = .throttled wait ↔ ∃ p, answer = .ok p ∧ p.Throttles wait := by
  rcases answer with f | p
  · exact ⟨nofun, nofun⟩
  · simp [of, ofPage_throttled]

theorem Outcome.status_of_failed {p : Page} {status : Int} {e : String} (h : ofPage p = .failed status e) :
    status = p.status := by
  rw [ofPage] at h
  split at h
  · split at h
    · split at h <;> cases h
      rfl
    · cases h
  · split at h
    · split at h <;> cases h
      rfl
    · cases h
      rfl

/-- The later report counts so many more requests, and it tells of a wait if there was one before or since. -/
structure Report.Counts (later earlier : Report) (requests : Nat) (waited : Bool) : Prop where
  pages : later.pages = earlier.pages + requests
  waited : later.waited = (earlier.waited || waited)

namespace Report.Counts

variable {a b c : Report} {m n : Nat} {waited waited' : Bool}

theorem refl (a : Report) : a.Counts a 0 false := ⟨rfl, (Bool.or_false _).symm⟩

/-- What a report tells otherwise does not matter. -/
theorem of_eq (hpages : b.pages = a.pages) (hwaited : b.waited = a.waited) : b.Counts a 0 false :=
  ⟨hpages, by rw [hwaited, Bool.or_false]⟩

theorem wait (a : Report) : { a with waited := true }.Counts a 0 true := ⟨rfl, (Bool.or_true _).symm⟩

theorem trans (h : c.Counts b n waited') (h' : b.Counts a m waited) : c.Counts a (m + n) (waited || waited') := by
  constructor
  · rw [h.pages, h'.pages, Nat.add_assoc]
  · rw [h.waited, h'.waited, Bool.or_assoc]

end Report.Counts

namespace Cycle

open Program

variable {s : CycleSettings} {report : Report} {es : List Event}

/-- The documents are handed to the sink one after the other, up to the first one that it refuses. -/
inductive Hands : List Document → List Event → Except SinkFault Unit → Prop where
  | all (ds : List Document) : Hands ds (ds.map fun d => ⟨.index d, .ok ()⟩) (.ok ())
  | refused (taken : List Document) (d : Document) (rest : List Document) (f : SinkFault) :
      Hands (taken ++ d :: rest) (taken.map (fun d => ⟨.index d, .ok ()⟩) ++ [⟨.index d, .error f⟩]) (.error f)

namespace Hands

variable {ds ds' : List Document} {es' : List Event} {r : Except SinkFault Unit} {f : SinkFault}

/-- Nothing is done but to hand documents on. -/
theorem indexes (h : Hands ds es r) : ∀ ev ∈ es, ∃ d taken, ev = ⟨.index d, taken⟩ := by
  intro ev hmem
  cases h with
  | all ds =>
      obtain ⟨d, -, rfl⟩ := List.mem_map.1 hmem
      exact ⟨d, _, rfl⟩
  | refused taken d rest f =>
      rcases List.mem_append.1 hmem with hmem | hmem
      · obtain ⟨d', -, rfl⟩ := List.mem_map.1 hmem
        exact ⟨d', _, rfl⟩
      · exact ⟨d, _, List.mem_singleton.1 hmem⟩

theorem append (h : Hands ds es (.ok ())) (h' : Hands ds' es' r) : Hands (ds ++ ds') (es ++ es') r := by
  cases h with
  | all ds =>
    cases h' with
    | all ds' =>
        rw [← List.map_append]
        exact .all (ds ++ ds')
    | refused taken d rest f =>
        rw [← List.append_assoc, ← List.append_assoc, ← List.map_append]
        exact .refused (ds ++ taken) d rest f

theorem append_refused (h : Hands ds es (.error f)) (ds' : List Document) : Hands (ds ++ ds') es (.error f) := by
  cases h with
  | refused taken d rest f =>
      rw [List.append_assoc, List.cons_append]
      exact .refused taken d (rest ++ ds') f

end Hands

theorem does_hands {ds : List Document} {a : Except SinkFault Unit × Report}
    (h : (deliver ds report).Does es a) : Hands ds es a.1 ∧ a.2.Counts report 0 false := by
  induction ds generalizing report es with
  | nil =>
      obtain ⟨rfl, rfl⟩ := h
      exact ⟨.all [], .refl report⟩
  | cons d ds ih =>
      rw [deliver, does_perform] at h
      obtain ⟨r, es', rfl, h⟩ := h
      cases r with
      | ok _ =>
          obtain ⟨hhands, hcounts⟩ := ih h
          exact ⟨Hands.append (.all [d]) hhands, hcounts.pages, hcounts.waited⟩
      | error f =>
          obtain ⟨rfl, rfl⟩ := h
          exact ⟨.refused [] d ds f, .refl report⟩

theorem does_route_hands {rs : List Record} {a : Except SinkFault Unit × Report}
    (h : (route s.documents rs report).Does es a) : Hands (s.yield rs) es a.1 ∧ a.2.Counts report 0 false := by
  induction rs generalizing report es with
  | nil =>
      obtain ⟨rfl, rfl⟩ := h
      exact ⟨.all [], .refl report⟩
  | cons r rs ih =>
      have hyield : s.yield (r :: rs) = (s.documents r).toOption.getD [] ++ s.yield rs := rfl
      rw [route] at h
      rw [hyield]
      cases hdocs : s.documents r with
      | error f =>
          simp only [hdocs] at h
          obtain ⟨hhands, hcounts⟩ := ih h
          exact ⟨hhands, hcounts.pages, hcounts.waited⟩
      | ok ds =>
          simp only [hdocs, does_bind] at h
          obtain ⟨es₁, ⟨taken, report'⟩, es₂, rfl, h₁, h₂⟩ := h
          obtain ⟨hhands, hcounts⟩ := does_hands h₁
          cases taken with
          | error f =>
              obtain ⟨rfl, rfl⟩ := h₂
              rw [List.append_nil]
              exact ⟨hhands.append_refused _, hcounts.pages, hcounts.waited⟩
          | ok _ =>
              obtain ⟨hhands', hcounts'⟩ := ih h₂
              have hboth := hcounts'.trans hcounts
              exact ⟨hhands.append hhands', hboth.pages, hboth.waited⟩

/-- What the last answer to the requests for a page comes to, with the documents that are handed to the sink. -/
inductive Settles (s : CycleSettings) : Except SourceFault Page → List Event → Attempt → Prop where
  | unanswered {f : SourceFault} : Settles s (.error f) [] ⟨Outcome.noResponse, some f.message, none⟩
  | throttled {p : Page} {wait : Span} : p.Throttles wait →
      Settles s (.ok p) [] ⟨p.status, some "repository still throttling after retry", none⟩
  | failed {p : Page} {e : String} : Outcome.ofPage p = .failed p.status e →
      Settles s (.ok p) [] ⟨p.status, some e, none⟩
  | taken {p : Page} {es : List Event} : Outcome.ofPage p = .success → Hands (s.yield p.records) es (.ok ()) →
      Settles s (.ok p) es ⟨p.status, none, p.token⟩
  | refused {p : Page} {es : List Event} {f : SinkFault} : Outcome.ofPage p = .success →
      Hands (s.yield p.records) es (.error f) → Settles s (.ok p) es ⟨p.status, some f.message, none⟩

theorem Settles.indexes {answer : Except SourceFault Page} {a : Attempt} (h : Settles s answer es a) :
    ∀ ev ∈ es, ∃ d taken, ev = ⟨.index d, taken⟩ := by
  cases h with
  | taken _ hhands => exact hhands.indexes
  | refused _ hhands => exact hhands.indexes
  | _ => simp

theorem does_settles {answer : Except SourceFault Page} {a : Attempt × Report}
    (h : (settle s answer report).Does es a) : Settles s answer es a.1 ∧ a.2.Counts report 0 false := by
  rcases answer with f | p
  · obtain ⟨rfl, rfl⟩ := h
    exact ⟨.unanswered, .refl report⟩
  · rw [settle] at h
    cases hp : Outcome.ofPage p with
    | failed status e =>
        simp only [hp] at h
        obtain ⟨rfl, rfl⟩ := h
        obtain rfl := Outcome.status_of_failed hp
        exact ⟨.failed hp, .refl report⟩
    | throttled wait =>
        simp only [hp] at h
        obtain ⟨rfl, rfl⟩ := h
        exact ⟨.throttled (Outcome.ofPage_throttled.1 hp), .refl report⟩
    | success =>
        simp only [hp, does_bind] at h
        obtain ⟨es₁, ⟨routed, report'⟩, es₂, rfl, h₁, h₂⟩ := h
        obtain ⟨hhands, hcounts⟩ := does_route_hands h₁
        cases routed with
        | error f =>
            obtain ⟨rfl, rfl⟩ := h₂
            rw [List.append_nil]
            exact ⟨.refused hp hhands, hcounts⟩
        | ok _ =>
            obtain ⟨rfl, rfl⟩ := h₂
            rw [List.append_nil]
            exact ⟨.taken hp hhands, hcounts⟩

/-- The requests for one page, and what came of the last answer. -/
structure Try where
  request : Request
  /-- The page that put the request off and the time that passed since, if one did. -/
  putOff : Option (Page × Span)
  /-- The last answer. -/
  answer : Except SourceFault Page
  /-- What the sink was handed. -/
  handed : List Event
  attempt : Attempt

namespace Try

/-- The same request once more when the time that the repository asked for has passed. -/
def events (s : CycleSettings) (t : Try) : List Event :=
  (t.putOff.map fun x => [⟨.request t.request s.timeout, .ok x.1⟩, ⟨.pause x.2, true⟩]).getD [] ++
    ⟨.request t.request s.timeout, t.answer⟩ :: t.handed

/-- A request is put off only by an answer that asks for it, and an answer that does so puts it off once. -/
structure Sound (s : CycleSettings) (t : Try) : Prop where
  putOff : ∀ p wait, t.putOff = some (p, wait) → p.Throttles wait
  once : t.putOff = none → ∀ p wait, t.answer = .ok p → ¬ p.Throttles wait
  settled : Settles s t.answer t.handed t.attempt

theorem Sound.requests_eq {t : Try} (h : t.Sound s) :
    requests (t.events s) = if t.putOff.isSome then 2 else 1 := by
  have hhanded : requests t.handed = 0 := by
    apply requests_eq_zero
    intro ev hmem
    obtain ⟨d, taken, rfl⟩ := h.settled.indexes ev hmem
    rfl
  cases hput : t.putOff <;> simp [events, hput, hhanded, Event.isRequest]

end Try

/-- What the requests for one page do: they come to an attempt, or the harvest is cancelled while it waits. -/
inductive Tries (s : CycleSettings) (q : Request) (report : Report) : List Event → Option Attempt × Report → Prop where
  | settled {t : Try} {report' : Report} : t.request = q → t.Sound s →
      report'.Counts report (requests (t.events s)) t.putOff.isSome →
      Tries s q report (t.events s) (some t.attempt, report')
  | cancelled {p : Page} {wait : Span} {report' : Report} : p.Throttles wait → report'.Counts report 1 false →
      Tries s q report [⟨.request q s.timeout, .ok p⟩, ⟨.pause wait, false⟩] (none, report')

theorem does_asks {q : Request} {a : Except SourceFault Page × Report} (h : (ask s q report).Does es a) :
    es = [⟨.request q s.timeout, a.1⟩] ∧ a.2.Counts report 1 false := by
  obtain ⟨answer, _, rfl, rfl, rfl⟩ := h
  exact ⟨rfl, rfl, (Bool.or_false _).symm⟩

theorem does_tries {q : Request} {a : Option Attempt × Report} (h : (attempt s q report).Does es a) :
    Tries s q report es a := by
  rw [attempt, does_bind] at h
  obtain ⟨es₁, ⟨answer, report₁⟩, es₂, rfl, h₁, h⟩ := h
  obtain ⟨rfl, hcounts₁⟩ := does_asks h₁
  -- settled at once, unless the answer asks to wait
  have hsettled (honce : ∀ p wait, answer = .ok p → ¬ p.Throttles wait)
      (h : (settle s answer report₁ >>= fun a => pure (some a.1, a.2)).Does es₂ a) :
      Tries s q report ([⟨.request q s.timeout, answer⟩] ++ es₂) a := by
    rw [does_bind] at h
    obtain ⟨es₃, ⟨a', report₂⟩, es₄, rfl, h₃, rfl, rfl⟩ := h
    obtain ⟨hsettles, hcounts₂⟩ := does_settles h₃
    have hsound : Try.Sound s ⟨q, none, answer, es₃, a'⟩ := by
      refine ⟨?_, fun _ => honce, hsettles⟩
      rintro _ _ ⟨⟩
    have hcounts : report₂.Counts report (requests (Try.events s ⟨q, none, answer, es₃, a'⟩)) false := by
      rw [hsound.requests_eq]
      exact hcounts₂.trans hcounts₁
    have htries : Tries s q report _ (some a', report₂) := .settled rfl hsound hcounts
    rw [List.append_nil]
    exact htries
  cases houtcome : Outcome.of answer with
  | success =>
      simp only [houtcome] at h
      refine hsettled (fun p wait hp hthrottles => ?_) h
      cases houtcome.symm.trans (Outcome.of_throttled.2 ⟨p, hp, hthrottles⟩)
  | failed status e =>
      simp only [houtcome] at h
      refine hsettled (fun p wait hp hthrottles => ?_) h
      cases houtcome.symm.trans (Outcome.of_throttled.2 ⟨p, hp, hthrottles⟩)
  | throttled wait =>
      simp only [houtcome] at h
      obtain ⟨p, rfl, hthrottles⟩ := Outcome.of_throttled.1 houtcome
      rw [does_perform] at h
      obtain ⟨waited, es₃, rfl, h⟩ := h
      cases waited with
      | false =>
          obtain ⟨rfl, rfl⟩ := h
          exact .cancelled hthrottles hcounts₁
      | true =>
          rw [if_pos rfl, does_bind] at h
          obtain ⟨es₄, ⟨answer', report₂⟩, es₅, rfl, h₄, h⟩ := h
          obtain ⟨rfl, hcounts₂⟩ := does_asks h₄
          rw [does_bind] at h
          obtain ⟨es₆, ⟨a', report₃⟩, es₇, rfl, h₆, rfl, rfl⟩ := h
          obtain ⟨hsettles, hcounts₃⟩ := does_settles h₆
          have hsound : Try.Sound s ⟨q, some (p, wait), answer', es₆, a'⟩ := by
            constructor
            · rintro _ _ ⟨⟩
              exact hthrottles
            · rintro ⟨⟩
            · exact hsettles
          have hcounts : report₃.Counts report (requests (Try.events s ⟨q, some (p, wait), answer', es₆, a'⟩)) true := by
            rw [hsound.requests_eq]
            exact hcounts₃.trans (hcounts₂.trans ((Report.Counts.wait report₁).trans hcounts₁))
          have htries : Tries s q report _ (some a', report₃) := .settled rfl hsound hcounts
          rw [List.append_nil]
          exact htries

/-- A page that is dealt with: its requests, the flush and the checkpoint. -/
structure Handled extends Try where
  flushed : Except SinkFault Unit
  saved : Except Store.Fault Unit

namespace Handled

/-- The checkpoint that is saved for the page. -/
def checkpoint (h : Handled) : Checkpoint := checkpointAfter h.request h.attempt h.flushed

def events (s : CycleSettings) (h : Handled) : List Event :=
  ⟨.cancelled, false⟩ :: h.toTry.events s ++ [⟨.flush, h.flushed⟩, ⟨.save s.key h.checkpoint, h.saved⟩]

theorem requests_eq {h : Handled} (hsound : h.toTry.Sound s) :
    requests (h.events s) = if h.putOff.isSome then 2 else 1 := by
  rw [events, requests_append, requests_cons, hsound.requests_eq]
  simp [Event.isRequest]

end Handled

theorem does_saves {q : Request} {a a' : Attempt} (h : (persist s q a).Does es a') :
    ∃ flushed saved, es = [⟨.flush, flushed⟩, ⟨.save s.key (checkpointAfter q a flushed), saved⟩] := by
  obtain ⟨flushed, _, rfl, saved, _, rfl, rfl, rfl⟩ := h
  exact ⟨flushed, saved, rfl⟩

/-- The flush and the checkpoint behind the requests for a page. -/
def saves (s : CycleSettings) (q : Request) (a : Attempt) (flushed : Except SinkFault Unit)
    (saved : Except Store.Fault Unit) : List Event :=
  [⟨.flush, flushed⟩, ⟨.save s.key (checkpointAfter q a flushed), saved⟩]

/--
The ways in which the stage of a page can go. It is stopped before the requests or while it waits, or the
requests come to an attempt, which is flushed and saved; behind that the cycle ends or goes on with a token.
-/
inductive Goes (s : CycleSettings) (tally : Tally) (q : Request) (report : Report) :
    List Event → Cycle × Report → Prop where
  | stopped {es : List Event} {st : Cycle × Report} : (finish s tally report.cancel).Does es st →
      Goes s tally q report (⟨.cancelled, true⟩ :: es) st
  | cancelled {es es' : List Event} {report' : Report} {st : Cycle × Report} :
      (attempt s q report).Does es (none, report') → (finish s tally report'.cancel).Does es' st →
      Goes s tally q report (⟨.cancelled, false⟩ :: es ++ es') st
  | last {es es' : List Event} {a : Attempt} {flushed : Except SinkFault Unit} {saved : Except Store.Fault Unit}
      {report' : Report} {status : Option Int} {error : Option String} {failed : Bool} {st : Cycle × Report} :
      (attempt s q report).Does es (some a, report') →
      (finish s tally { report' with lastStatus := status, error := error, failed := failed }).Does es' st →
      Goes s tally q report (⟨.cancelled, false⟩ :: es ++ saves s q a flushed saved ++ es') st
  | next {es : List Event} {a : Attempt} {flushed : Except SinkFault Unit} {saved : Except Store.Fault Unit}
      {report' : Report} {status : Option Int} {token : String} :
      (attempt s q report).Does es (some a, report') →
      Goes s tally q report (⟨.cancelled, false⟩ :: es ++ saves s q a flushed saved)
        (.paging tally (q.continueWith token), { report' with lastStatus := status })

theorem does_goes {tally : Tally} {q : Request} {st : Cycle × Report} (h : (page s tally q report).Does es st) :
    Goes s tally q report es st := by
  rw [page, does_perform] at h
  obtain ⟨stopped, es₁, rfl, h⟩ := h
  cases stopped with
  | true => exact .stopped h
  | false =>
      rw [if_neg (by decide), does_bind] at h
      obtain ⟨es₂, ⟨a, report₁⟩, es₃, rfl, h₂, h⟩ := h
      cases a with
      | none => exact .cancelled h₂ h
      | some a =>
          rw [does_bind] at h
          obtain ⟨es₄, ⟨status, error, token⟩, es₅, rfl, h₄, h⟩ := h
          obtain ⟨flushed, saved, rfl⟩ := does_saves h₄
          rw [← List.cons_append, ← List.append_assoc]
          -- a fault ends the cycle, and so does a page without a token
          cases error with
          | some e => exact .last h₂ h
          | none =>
              cases token with
              | none => exact .last h₂ h
              | some token =>
                  obtain ⟨rfl, rfl⟩ := h
                  rw [List.append_nil]
                  exact .next h₂

/-- What the stage of a page does, and the stage after it. -/
inductive Visits (s : CycleSettings) (tally : Tally) (q : Request) (report : Report) :
    List Event → Cycle × Report → Prop where
  | stopped {es : List Event} : Closes s es →
      Visits s tally q report (⟨.cancelled, true⟩ :: es) (.ended, report.cancel)
  | cancelled {p : Page} {wait : Span} {report' : Report} {es : List Event} : p.Throttles wait →
      report'.Counts report 1 false → Closes s es →
      Visits s tally q report
        (⟨.cancelled, false⟩ :: ⟨.request q s.timeout, .ok p⟩ :: ⟨.pause wait, false⟩ :: es) (.ended, report'.cancel)
  | last {h : Handled} {report' : Report} {es : List Event} : h.request = q → h.toTry.Sound s →
      report'.Counts report (requests (h.events s)) h.putOff.isSome → Closes s es →
      Visits s tally q report (h.events s ++ es) (.ended, report')
  | next {h : Handled} {token : String} {report' : Report} : h.request = q → h.toTry.Sound s →
      report'.Counts report (requests (h.events s)) h.putOff.isSome →
      Visits s tally q report (h.events s) (.paging tally (q.continueWith token), report')

theorem does_visits {tally : Tally} {q : Request} {st : Cycle × Report}
    (h : (page s tally q report).Does es st) : Visits s tally q report es st := by
  -- an attempt that is flushed and saved is a page that is dealt with
  have hhandled {es : List Event} {a : Attempt} {flushed : Except SinkFault Unit} {saved : Except Store.Fault Unit}
      {report' : Report} (h : (attempt s q report).Does es (some a, report')) :
      ∃ p : Handled, p.request = q ∧ p.toTry.Sound s ∧
        report'.Counts report (requests (p.events s)) p.putOff.isSome ∧
        ⟨.cancelled, false⟩ :: es ++ saves s q a flushed saved = p.events s := by
    generalize hattempt : (some a, report') = attempted at h
    cases does_tries h with
    | cancelled _ _ => cases hattempt
    | @settled t report' hrequest hsound hcounts =>
        cases hattempt
        refine ⟨⟨t, flushed, saved⟩, hrequest, hsound, ?_, ?_⟩
        · rw [Handled.requests_eq hsound, ← hsound.requests_eq]
          exact hcounts
        · rw [Handled.events, Handled.checkpoint, hrequest]
          rfl
  cases does_goes h with
  | stopped hfinish =>
      obtain ⟨hcloses, rfl⟩ := does_closes hfinish
      exact .stopped hcloses
  | @cancelled es es' report' _ hattempt hfinish =>
      obtain ⟨hcloses, rfl⟩ := does_closes hfinish
      generalize hnone : (none, report') = attempted at hattempt
      cases does_tries hattempt with
      | settled _ _ _ => cases hnone
      | cancelled hthrottles hcounts =>
          cases hnone
          exact .cancelled hthrottles hcounts hcloses
  | last hattempt hfinish =>
      obtain ⟨p, hrequest, hsound, hcounts, hevents⟩ := hhandled hattempt
      obtain ⟨hcloses, rfl⟩ := does_closes hfinish
      rw [hevents]
      exact .last hrequest hsound ⟨hcounts.pages, hcounts.waited⟩ hcloses
  | next hattempt =>
      obtain ⟨p, hrequest, hsound, hcounts, hevents⟩ := hhandled hattempt
      rw [hevents]
      exact .next hrequest hsound ⟨hcounts.pages, hcounts.waited⟩

end Cycle

end Harvesting
