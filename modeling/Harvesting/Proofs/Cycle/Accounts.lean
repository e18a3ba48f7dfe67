import Harvesting.Proofs.Cycle.Events

/-!
# The accounts of a cycle

Where the sink takes whatever it is handed, the report of a cycle is the account of what the repository
gave: every record of a page that is a success is counted once, its documents are handed on in order, and
no other page contributes anything.

* `received`, `handed` — the records of the pages that are successes, and the documents for the sink;
* `Report.Routes` — a report that counts some records and what came of them;
* `Accounts` — events for which a report accounts; `Accounts.trans` puts two stretches together;
* `Cycle.accounts_settle`, `Cycle.accounts_attempt`, `Cycle.accounts_page` — the parts of a cycle;
* `Cycle.accounts_for` — the whole cycle.
-/

namespace Harvesting

/-! ## What was received and handed on -/

/-- The document that is handed to the sink. -/
def Event.document? : Event → Option Document
  | ⟨.index d, _⟩ => some d
  | _ => none

/-- The pages among the answers that are successes. -/
def succeeded (es : List Event) : List Page :=
  ((es.filterMap Event.exchange?).map (·.2)).filter fun p => Outcome.ofPage p = .success

/-- The records of the pages that are successes, in the order in which they came. -/
def received (es : List Event) : List Record := (succeeded es).flatMap (·.records)

/-- The documents that the sink was handed, in order. -/
def handed (es : List Event) : List Document := es.filterMap Event.document?

/-- The sink refuses a document. -/
def Event.refuses : Event → Bool
  | ⟨.index _, .error _⟩ => true
  | _ => false

/-- The sink takes whatever it is handed. -/
abbrev Unrefused (es : List Event) : Prop := ∀ ev ∈ es, ev.refuses = false

/-- The records of an answer that is a success. -/
def given : Except SourceFault Page → List Record
  | .ok p => if Outcome.ofPage p = .success then p.records else []
  | .error _ => []

section

variable {es es' : List Event}

@[simp] theorem received_nil : received [] = [] := rfl

theorem received_append (es es' : List Event) : received (es ++ es') = received es ++ received es' := by
  simp [received, succeeded]

theorem handed_append (es es' : List Event) : handed (es ++ es') = handed es ++ handed es' :=
  List.filterMap_append

theorem received_answer (q : Request) (limit : Span) (answer : Except SourceFault Page) :
    received [⟨.request q limit, answer⟩] = given answer := by
  rcases answer with f | p
  · rfl
  · show (List.filter _ [p]).flatMap _ = _
    rw [given]
    split
    · next hp => simp [hp]
    · next hp => simp [hp]

/-- Events that are neither answers nor documents. -/
def Silent (es : List Event) : Prop := ∀ ev ∈ es, ev.exchange? = none ∧ ev.document? = none

theorem received_of_silent (h : Silent es) : received es = [] := by
  have hnone : es.filterMap Event.exchange? = [] := List.filterMap_eq_nil_iff.2 fun ev hev => (h ev hev).1
  rw [received, succeeded, hnone]
  rfl

theorem handed_of_silent (h : Silent es) : handed es = [] :=
  List.filterMap_eq_nil_iff.2 fun ev hev => (h ev hev).2

theorem unrefused_append : Unrefused (es ++ es') ↔ Unrefused es ∧ Unrefused es' := List.forall_mem_append

end

/-! ## Reports that count records -/

/-- The record has no documents for a fault. -/
def CycleSettings.lacks (s : CycleSettings) (r : Record) : Bool := (s.documents r).toOption.isNone

theorem CycleSettings.yield_append (s : CycleSettings) (rs rs' : List Record) :
    s.yield (rs ++ rs') = s.yield rs ++ s.yield rs' := List.flatMap_append

/-- The later report counts so many more records, their documents, and those of them that have none for a fault. -/
structure Report.Routes (s : CycleSettings) (later earlier : Report) (rs : List Record) : Prop where
  records : later.records = earlier.records + rs.length
  documents : later.documents = earlier.documents + (s.yield rs).length
  skipped : later.skipped = earlier.skipped + rs.countP s.lacks

/-- The later report accounts for the events since the earlier one. -/
structure Accounts (s : CycleSettings) (later earlier : Report) (es : List Event) : Prop extends
    later.Routes s earlier (received es) where
  handed : handed es = s.yield (received es)

section

variable {s : CycleSettings} {a b c : Report} {rs rs' : List Record} {es es' : List Event}

theorem Report.Routes.trans (h' : c.Routes s b rs') (h : b.Routes s a rs) : c.Routes s a (rs ++ rs') where
  records := by rw [h'.records, h.records, List.length_append, Nat.add_assoc]
  documents := by rw [h'.documents, h.documents, s.yield_append, List.length_append, Nat.add_assoc]
  skipped := by rw [h'.skipped, h.skipped, List.countP_append, Nat.add_assoc]

theorem Accounts.trans (h' : Accounts s c b es') (h : Accounts s b a es) : Accounts s c a (es ++ es') where
  toRoutes := by
    rw [received_append]
    exact h'.toRoutes.trans h.toRoutes
  handed := by rw [handed_append, received_append, s.yield_append, h.handed, h'.handed]

/-- Silent events leave the counts as they are. -/
theorem accounts_of_silent (hes : Silent es) (hrecords : b.records = a.records)
    (hdocuments : b.documents = a.documents) (hskipped : b.skipped = a.skipped) : Accounts s b a es := by
  have hnone : Accounts s b a [] := ⟨⟨hrecords, hdocuments, hskipped⟩, rfl⟩
  obtain ⟨hroutes, -⟩ := hnone
  rw [received_nil, ← received_of_silent hes] at hroutes
  refine ⟨hroutes, ?_⟩
  rw [handed_of_silent hes, received_of_silent hes]
  rfl

end

/-! ## The parts of a cycle -/

namespace Cycle

open Program

variable {s : CycleSettings} {q : Request} {report : Report} {es : List Event} {st : Cycle × Report}

theorem accounts_deliver {ds : List Document} {a : Except SinkFault Unit × Report}
    (h : (deliver ds report).Does es a) (hes : Unrefused es) :
    es = ds.map (fun d => ⟨.index d, .ok ()⟩) ∧
      a = (.ok (), { report with documents := report.documents + ds.length }) := by
  induction ds generalizing report es with
  | nil =>
      obtain ⟨rfl, rfl⟩ := h
      exact ⟨rfl, rfl⟩
  | cons d ds ih =>
      rw [deliver, does_perform] at h
      obtain ⟨taken, es', rfl, h⟩ := h
      obtain ⟨htaken, hes'⟩ := List.forall_mem_cons.1 hes
      cases taken with
      | error f => cases htaken
      | ok _ =>
          obtain ⟨rfl, rfl⟩ := ih h hes'
          refine ⟨rfl, ?_⟩
          rw [List.length_cons, Nat.add_comm ds.length, Nat.add_assoc]

theorem accounts_route {rs : List Record} {a : Except SinkFault Unit × Report}
    (h : (route s.documents rs report).Does es a) (hes : Unrefused es) :
    es = (s.yield rs).map (fun d => ⟨.index d, .ok ()⟩) ∧ a.1 = .ok () ∧ a.2.Routes s report rs := by
  induction rs generalizing report es with
  | nil =>
      obtain ⟨rfl, rfl⟩ := h
      exact ⟨rfl, rfl, rfl, rfl, rfl⟩
  | cons r rs ih =>
      have hyield : s.yield (r :: rs) = (s.documents r).toOption.getD [] ++ s.yield rs := rfl
      -- one record, and then the others
      have hcons {later between : Report} (hr : between.Routes s report [r]) (hrs : later.Routes s between rs) :
          later.Routes s report (r :: rs) := hrs.trans hr
      rw [route] at h
      cases hdocs : s.documents r with
      | error f =>
          simp only [hdocs] at h
          obtain ⟨hevents, hok, hroutes⟩ := ih h hes
          refine ⟨?_, hok, hcons ⟨rfl, ?_, ?_⟩ hroutes⟩
          · rw [hyield, hdocs]
            exact hevents
          · simp [CycleSettings.yield, hdocs, Except.toOption]
          · simp [CycleSettings.lacks, hdocs, Except.toOption]
      | ok ds =>
          simp only [hdocs, does_bind] at h
          obtain ⟨es₁, ⟨taken, report'⟩, es₂, rfl, h₁, h₂⟩ := h
          obtain ⟨hes₁, hes₂⟩ := unrefused_append.1 hes
          obtain ⟨rfl, hdelivered⟩ := accounts_deliver h₁ hes₁
          obtain ⟨rfl, rfl⟩ := Prod.mk.inj hdelivered
          obtain ⟨hevents, hok, hroutes⟩ := ih h₂ hes₂
          refine ⟨?_, hok, hcons ⟨rfl, ?_, ?_⟩ hroutes⟩
          · rw [hyield, hdocs, List.map_append, hevents]
            rfl
          · simp [CycleSettings.yield, hdocs, Except.toOption]
          · simp [CycleSettings.lacks, hdocs, Except.toOption]

theorem received_indexes (ds : List Document) : received (ds.map fun d => ⟨.index d, .ok ()⟩) = [] := by
  have hnone : (ds.map fun d => (⟨.index d, .ok ()⟩ : Event)).filterMap Event.exchange? = [] := by
    apply List.filterMap_eq_nil_iff.2
    intro ev hev
    obtain ⟨d, -, rfl⟩ := List.mem_map.1 hev
    rfl
  rw [received, succeeded, hnone]
  rfl

theorem handed_indexes (ds : List Document) : handed (ds.map fun d => ⟨.index d, .ok ()⟩) = ds := by
  rw [handed, List.filterMap_map]
  exact List.filterMap_some

/-- What is handed on for an answer are the documents of its records, if it is a success. -/
theorem accounts_settle {answer : Except SourceFault Page} {a : Attempt × Report} {limit : Span}
    (h : (settle s answer report).Does es a) (hes : Unrefused es) :
    Accounts s a.2 report (⟨.request q limit, answer⟩ :: es) := by
  -- without a success nothing is handed on and nothing counted
  have hnothing (hgiven : given answer = []) : Accounts s report report [⟨.request q limit, answer⟩] := by
    have hreceived : received [⟨.request q limit, answer⟩] = [] := by rw [received_answer, hgiven]
    constructor
    · rw [hreceived]
      exact ⟨rfl, rfl, rfl⟩
    · rw [hreceived]
      rfl
  rcases answer with f | p
  · obtain ⟨rfl, rfl⟩ := h
    exact hnothing rfl
  · rw [settle] at h
    cases hp : Outcome.ofPage p with
    | failed status e =>
        simp only [hp] at h
        obtain ⟨rfl, rfl⟩ := h
        exact hnothing (if_neg (by simp [hp]))
    | throttled wait =>
        simp only [hp] at h
        obtain ⟨rfl, rfl⟩ := h
        exact hnothing (if_neg (by simp [hp]))
    | success =>
        simp only [hp, does_bind] at h
        obtain ⟨es₁, ⟨routed, report'⟩, es₂, rfl, h₁, h₂⟩ := h
        obtain ⟨rfl, hok, hroutes⟩ := accounts_route h₁ (unrefused_append.1 hes).1
        obtain rfl : routed = .ok () := hok
        obtain ⟨rfl, rfl⟩ := h₂
        have hgiven : given (.ok p) = p.records := if_pos hp
        rw [List.append_nil]
        have hreceived : received (⟨.request q limit, .ok p⟩ ::
            (s.yield p.records).map fun d => ⟨.index d, .ok ()⟩) = p.records := by
          rw [← List.singleton_append, received_append, received_answer, received_indexes, hgiven, List.append_nil]
        constructor
        · rw [hreceived]
          exact hroutes
        · rw [hreceived, ← List.singleton_append, handed_append, handed_indexes]
          rfl

/-- The last answer for a page is settled behind what was accounted for before. -/
theorem accounts_settled {before since : Report} {log : List Event} {answer : Except SourceFault Page}
    {a : Option Attempt × Report} (hbefore : Accounts s before report log) (hsince : since.Routes s before [])
    (h : (settle s answer since >>= fun a => pure (some a.1, a.2)).Does es a) (hes : Unrefused es) :
    Accounts s a.2 report (log ++ ⟨.request q s.timeout, answer⟩ :: es) := by
  rw [does_bind] at h
  obtain ⟨es₁, ⟨a', report'⟩, es₂, rfl, h₁, rfl, rfl⟩ := h
  have hsettle : Accounts s report' since (⟨.request q s.timeout, answer⟩ :: es₁) :=
    accounts_settle h₁ (unrefused_append.1 hes).1
  have hsame : Accounts s since before [] := ⟨hsince, rfl⟩
  have htotal := hsettle.trans (hsame.trans hbefore)
  rw [List.append_nil] at htotal
  rwa [List.append_nil]

theorem routes_ask {a : Except SourceFault Page × Report} (h : (ask s q report).Does es a) :
    es = [⟨.request q s.timeout, a.1⟩] ∧ a.2.Routes s report [] := by
  obtain ⟨answer, _, rfl, rfl, rfl⟩ := h
  exact ⟨rfl, rfl, rfl, rfl⟩

/-- An answer that asks to wait gives nothing. -/
theorem accounts_putOff {answer : Except SourceFault Page} {wait : Span} {waited : Bool} {later : Report}
    (houtcome : Outcome.of answer = .throttled wait) (hsame : later.Routes s report []) :
    Accounts s later report [⟨.request q s.timeout, answer⟩, ⟨.pause wait, waited⟩] := by
  have hgiven : given answer = [] := by
    rcases answer with f | p
    · rfl
    · have hp : Outcome.ofPage p = .throttled wait := houtcome
      exact if_neg (by simp [hp])
  have hreceived : received [⟨.request q s.timeout, answer⟩, ⟨.pause wait, waited⟩] = [] := by
    have happend := received_append [⟨.request q s.timeout, answer⟩] [⟨.pause wait, waited⟩]
    rw [received_answer, hgiven] at happend
    exact happend
  constructor
  · rw [hreceived]
    exact hsame
  · rw [hreceived]
    rfl

theorem accounts_attempt {a : Option Attempt × Report} (h : (attempt s q report).Does es a) (hes : Unrefused es) :
    Accounts s a.2 report es := by
  rw [attempt, does_bind] at h
  obtain ⟨es₁, ⟨answer, report₁⟩, es₂, rfl, h₁, h⟩ := h
  obtain ⟨rfl, hask⟩ := routes_ask h₁
  obtain ⟨-, hes₂⟩ := unrefused_append.1 hes
  have hstart : Accounts s report report [] := ⟨⟨rfl, rfl, rfl⟩, rfl⟩
  cases houtcome : Outcome.of answer with
  | success =>
      simp only [houtcome] at h
      exact accounts_settled hstart hask h hes₂
  | failed status e =>
      simp only [houtcome] at h
      exact accounts_settled hstart hask h hes₂
  | throttled wait =>
      simp only [houtcome] at h
      rw [does_perform] at h
      obtain ⟨waited, es₃, rfl, h⟩ := h
      cases waited with
      | false =>
          obtain ⟨rfl, rfl⟩ := h
          exact accounts_putOff houtcome hask
      | true =>
          rw [if_pos rfl, does_bind] at h
          obtain ⟨es₄, ⟨answer', report₂⟩, es₅, rfl, h₄, h⟩ := h
          obtain ⟨rfl, hagain⟩ := routes_ask h₄
          have hsince : report₂.Routes s report₁ [] := ⟨hagain.records, hagain.documents, hagain.skipped⟩
          have hput : Accounts s report report [⟨.request q s.timeout, answer⟩, ⟨.pause wait, true⟩] :=
            accounts_putOff houtcome ⟨rfl, rfl, rfl⟩
          obtain ⟨-, -, hes₅⟩ := (List.forall_mem_cons.1 hes₂).imp_right List.forall_mem_cons.1
          exact accounts_settled hput (hsince.trans hask) h hes₅

theorem Closes.silent (h : Closes s es) : Silent es := by
  obtain ⟨now, tally, written, rfl⟩ := h
  simp [Silent, Event.exchange?, Event.document?]

/-- The end of a cycle changes no count. -/
theorem accounts_finish {tally : Tally} {before later : Report} {es' : List Event}
    (hbefore : Accounts s before report es) (h : (finish s tally later).Does es' st)
    (hsame : later.records = before.records ∧ later.documents = before.documents ∧ later.skipped = before.skipped) :
    Accounts s st.2 report (es ++ es') := by
  obtain ⟨hcloses, rfl⟩ := does_closes h
  have hclosed : Accounts s later before es' := accounts_of_silent hcloses.silent hsame.1 hsame.2.1 hsame.2.2
  exact hclosed.trans hbefore

theorem accounts_page {tally : Tally} (h : (page s tally q report).Does es st) (hes : Unrefused es) :
    Accounts s st.2 report es := by
  have hasked (stopped : Bool) : Accounts s report report [⟨.cancelled, stopped⟩] :=
    accounts_of_silent (by simp [Silent, Event.exchange?, Event.document?]) rfl rfl rfl
  have htried {es : List Event} {a : Option Attempt × Report} (h : (attempt s q report).Does es a)
      (hes : Unrefused (⟨.cancelled, false⟩ :: es)) : Accounts s a.2 report (⟨.cancelled, false⟩ :: es) :=
    (accounts_attempt h (List.forall_mem_cons.1 hes).2).trans (hasked false)
  have hsaved {es : List Event} {a : Attempt} {flushed : Except SinkFault Unit} {saved : Except Store.Fault Unit}
      {later : Report} (h : Accounts s later report es) : Accounts s later report (es ++ saves s q a flushed saved) := by
    have hsaves : Accounts s later later (saves s q a flushed saved) :=
      accounts_of_silent (by simp [saves, Silent, Event.exchange?, Event.document?]) rfl rfl rfl
    exact hsaves.trans h
  cases does_goes h with
  | stopped hfinish => exact accounts_finish (hasked true) hfinish ⟨rfl, rfl, rfl⟩
  | cancelled hattempt hfinish =>
      obtain ⟨hes, -⟩ := unrefused_append.1 hes
      exact accounts_finish (htried hattempt hes) hfinish ⟨rfl, rfl, rfl⟩
  | last hattempt hfinish =>
      obtain ⟨hes, -⟩ := unrefused_append.1 (unrefused_append.1 hes).1
      exact accounts_finish (hsaved (htried hattempt hes)) hfinish ⟨rfl, rfl, rfl⟩
  | next hattempt =>
      obtain ⟨hes, -⟩ := unrefused_append.1 hes
      obtain ⟨hroutes, hhanded⟩ := hsaved (htried hattempt hes)
      exact ⟨⟨hroutes.records, hroutes.documents, hroutes.skipped⟩, hhanded⟩

theorem accounts_plan (h : (plan s report).Does es st) : Accounts s st.2 report es := by
  have hplanning := does_planning h
  have hsilent : Silent es := by
    cases hplanning <;> simp [Silent, Event.exchange?, Event.document?]
  cases hplanning <;> exact accounts_of_silent hsilent rfl rfl rfl

theorem accounts_stage {st' : Cycle × Report} {p : Program (Cycle × Report)} (hp : course s st = some p)
    (h : p.Does es st') (hes : Unrefused es) : Accounts s st'.2 st.2 es := by
  rcases st with ⟨_ | ⟨tally, q⟩ | _ | _, report⟩
  · cases hp
    exact accounts_plan h
  · cases hp
    exact accounts_page h hes
  · cases hp
  · cases hp

end Cycle

/-! ## The documents of records -/

/-- The record says which one it is. -/
def Record.isNamed (r : Record) : Bool := Text.trim r.identifier.toList ≠ []

namespace Transformer

/-- A record has a document, or none for a fault, or none since it is deleted. -/
theorem documents_cases (t : Transformer) (r : Record) :
    (∃ d, t.documents r = .ok [d] ∧ (r.isNamed && r.deleted) = false) ∨
      (∃ f, t.documents r = .error f ∧ (r.isNamed && r.deleted) = false) ∨
      t.documents r = .ok [] ∧ (r.isNamed && r.deleted) = true := by
  unfold documents Record.isNamed
  by_cases hblank : Text.trim r.identifier.toList = []
  · rw [if_pos hblank]
    exact .inr (.inl ⟨_, rfl, by simp [hblank]⟩)
  rw [if_neg hblank]
  cases hdeleted : r.deleted with
  | true => exact .inr (.inr ⟨rfl, by simp [hblank]⟩)
  | false =>
      cases r.metadata with
      | none => exact .inr (.inl ⟨_, rfl, Bool.and_false _⟩)
      | some m => exact .inl ⟨_, rfl, Bool.and_false _⟩

/-- Each record counts once: for its document, as one that has none for a fault, or as a deleted one. -/
theorem length_eq {s : CycleSettings} {t : Transformer} (hs : s.documents = t.documents) (rs : List Record) :
    rs.length = (s.yield rs).length + rs.countP s.lacks + rs.countP fun r => r.isNamed && r.deleted := by
  induction rs with
  | nil => rfl
  | cons r rs ih =>
      have hyield : s.yield (r :: rs) = (s.documents r).toOption.getD [] ++ s.yield rs := rfl
      rw [List.length_cons, List.countP_cons, List.countP_cons, hyield, List.length_append, ih, CycleSettings.lacks, hs]
      rcases t.documents_cases r with ⟨d, hd, hkept⟩ | ⟨f, hf, hkept⟩ | ⟨hnone, hkept⟩
      · simp [hd, hkept, Except.toOption]
        omega
      · simp [hf, hkept, Except.toOption]
        omega
      · simp [hnone, hkept, Except.toOption]
        omega

end Transformer

/-! ## The whole cycle -/

namespace Cycle

variable {s : CycleSettings} {log : List Event} {st : Cycle × Report}

/-- The report at a stage accounts for what happened up to there. -/
def AccountedAt (s : CycleSettings) (st : Cycle × Report) (log : List Event) : Prop :=
  Unrefused log → Accounts s st.2 .empty log

/-- The accounts of a cycle, up to any of its stages. -/
theorem accounts_run (hrun : (course s).Leads Recorded start [] st log) (hsink : Unrefused log) :
    Accounts s st.2 .empty log := by
  obtain ⟨es, htrace, hdoes⟩ := hrun.trace
  have hstart : AccountedAt s start [] := fun _ => accounts_of_silent (List.forall_mem_nil _) rfl rfl rfl
  have hat : AccountedAt s st log := by
    rw [htrace.recorded]
    refine hdoes.keeps (fun st log p es st' hst hp hdoes hsink => ?_) hstart
    obtain ⟨hlog, hes⟩ := unrefused_append.1 hsink
    exact (accounts_stage hp hdoes hes).trans (hst hlog)
  exact hat hsink

/--
The report of a cycle accounts for what the repository gave, if the sink refuses no document. The sink is
handed, in order, the documents of the records of the pages that are successes, page after page and record
after record; these records and documents are what the report counts. A record that is counted has a
document, or is counted as skipped, or says which one it is and is deleted. Pages that fail or ask to wait
contribute nothing.
-/
theorem accounts_for {t : Transformer} (hs : s.documents = t.documents) (hsink : Unrefused log)
    (hrun : (course s).Leads Recorded start [] st log) :
    handed log = (succeeded log).flatMap (fun p => p.records.flatMap fun r => (t.documents r).toOption.getD []) ∧
      st.2.records = ((succeeded log).flatMap (·.records)).length ∧ st.2.documents = (handed log).length ∧
      st.2.records = st.2.documents + st.2.skipped +
        ((succeeded log).flatMap (·.records)).countP fun r => r.isNamed && r.deleted := by
  have haccounts := accounts_run hrun hsink
  have hrecords : st.2.records = (received log).length := by
    rw [haccounts.records]
    exact Nat.zero_add _
  have hdocuments : st.2.documents = (s.yield (received log)).length := by
    rw [haccounts.documents]
    exact Nat.zero_add _
  have hskipped : st.2.skipped = (received log).countP s.lacks := by
    rw [haccounts.skipped]
    exact Nat.zero_add _
  refine ⟨?_, hrecords, ?_, ?_⟩
  · rw [haccounts.handed, CycleSettings.yield, received, List.flatMap_assoc, hs]
  · rw [haccounts.handed, hdocuments]
  · rw [hrecords, hdocuments, hskipped]
    exact Transformer.length_eq hs (received log)

/-- A repository that asks to wait, then gives a page of four records, and then fails. -/
def troubled (log : List Event) (e : Effect) : e.Reply × List Event :=
  let page : Page := ⟨200, [⟨"oai:1", none, [], false, some "<a/>"⟩, ⟨"oai:2", none, [], true, none⟩,
    ⟨" ", none, [], true, none⟩, ⟨"oai:3", none, [], false, some "<c/>"⟩], some "more", none, none⟩
  recording (match requests log with
    | 0 => .ofStatus 503 (some (.ofSecs 2))
    | 1 => page
    | _ => { page with status := 500 }) log e

theorem accounts_for_troubled :
    ∃ st log, (course Surroundings.sample).Leads Recorded start [] st log ∧ Unrefused log ∧ requests log = 3 ∧
      st.2.records = 4 ∧ (handed log).map (·.id) = ["oai:1", "oai:3"] ∧ st.2.documents = (handed log).length ∧
      st.2.records = st.2.documents + st.2.skipped +
        ((succeeded log).flatMap (·.records)).countP fun r => r.isNamed && r.deleted := by
  have hrecorded (log : List Event) (e : Effect) : Recorded log e (troubled log e).1 (troubled log e).2 := rfl
  have hrun := Course.leads_follow (c := course Surroundings.sample) hrecorded 3 start []
  have hsink : Unrefused ((course Surroundings.sample).follow troubled 3 start []).2 := by
    decide +kernel
  obtain ⟨-, hrecords, hdocuments, hsum⟩ := accounts_for (t := ⟨"index", none⟩) rfl hsink hrun
  exact ⟨_, _, hrun, hsink, by decide +kernel, by decide +kernel, by decide +kernel, hdocuments, hsum⟩

end Cycle

end Harvesting
