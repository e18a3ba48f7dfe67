import Harvesting.Proofs.Cycle.Reported

/-!
# Batches that are refused

The index answers a batch with a flag and with items for its documents. The batch counts as refused if the
flag is up and an item tells of a fault; either alone does not count. When a batch of a cycle is refused,
the flush that comes next is answered with a fault, and the checkpoint that is saved right after it is not
clean.

* `Bulk.Answer.Faulty` — an item tells of a fault; `Bulk.Answer.refuses_iff` — when a batch is refused;
* `Logged`, `Logging` — a cycle whose sink is a batcher, with the log of its happenings;
* `Cycle.Disclosed` — every page tells of its faults; `Disclosed.next` — where a fault of a batch is told;
* `Cycle.rejected_iff` — the result, and `Cycle.overlooked` — answers that tell of a fault and count as none.
-/

namespace Harvesting

/-! ## Answers of the index -/

namespace Bulk

/-- An item tells of a fault: it has a status of 300 or more, or an error. -/
def Answer.Faulty (a : Answer) : Prop :=
  ∃ named ∈ a.items, ∃ i ∈ named, 300 ≤ i.2.status ∨ i.2.error.isSome = true

theorem Answer.faulty_iff {a : Answer} : a.Faulty ↔ a.failures ≠ [] := by
  rw [ne_eq, Answer.failures, List.filter_eq_nil_iff]
  simp only [List.mem_flatMap, List.mem_map, decide_eq_true_eq, Bool.or_eq_true, not_forall, not_not, Faulty]
  constructor
  · rintro ⟨named, hnamed, i, hi, hfault⟩
    exact ⟨i.2, ⟨named, hnamed, i, hi, rfl⟩, hfault⟩
  · rintro ⟨-, ⟨named, hnamed, i, hi, rfl⟩, hfault⟩
    exact ⟨named, hnamed, i, hi, hfault⟩

/-- What the fault tells: how many items, of how many documents, and why the first one. -/
theorem Answer.verdict_of_faulty {a : Answer} (total : Nat) (herrors : a.errors = true) (hfaulty : a.Faulty) :
    ∃ first ∈ a.failures, a.verdict total = .error (.rejected a.failures.length total first.reason) := by
  rw [Answer.faulty_iff] at hfaulty
  rw [Answer.verdict, if_pos herrors]
  cases hfailures : a.failures with
  | nil => exact absurd hfailures hfaulty
  | cons first r => exact ⟨first, List.mem_cons_self, rfl⟩

theorem Answer.verdict_eq_ok {a : Answer} (total : Nat) (h : ¬ (a.errors = true ∧ a.Faulty)) :
    a.verdict total = .ok () := by
  rw [Answer.verdict]
  split
  · next herrors =>
    have hnone : a.failures = [] := by
      by_contra hfaulty
      exact h ⟨herrors, Answer.faulty_iff.2 hfaulty⟩
    rw [hnone]
  · rfl

/-- A batch counts as refused exactly if the flag is up and an item tells of a fault. -/
theorem Answer.refuses_iff {a : Answer} {total : Nat} :
    (∃ f, a.verdict total = .error f) ↔ a.errors = true ∧ a.Faulty := by
  constructor
  · rintro ⟨f, hf⟩
    by_contra h
    rw [Answer.verdict_eq_ok total h] at hf
    cases hf
  · rintro ⟨herrors, hfaulty⟩
    obtain ⟨first, -, hverdict⟩ := Answer.verdict_of_faulty total herrors hfaulty
    exact ⟨_, hverdict⟩

/-- A reply with a status of the 200s that can be read counts as what its answer says. -/
theorem verdict_answered {r : Response} {a : Answer} (hok : r.isSuccess = true) (hread : Answer.read? r.body = some a)
    (endpoint : Address) (timeout : Span) (total : Nat) :
    verdict endpoint timeout total (.answered r) = a.verdict total := by
  rw [verdict, if_pos hok, hread]

end Bulk

/-! ## The log of a cycle -/

open Shared

/-- What is recorded of a cycle: what happens at its sink, and the checkpoints that it saves. -/
inductive Mark where
  | sink (h : Happening Unit)
  | saved (c : Checkpoint)

/-- A client is told, or a checkpoint is saved. -/
def Mark.isClosing : Mark → Bool
  | .sink h => h.isTold
  | .saved _ => true

/-- A batcher and what was recorded so far. -/
@[ext]
structure Logged where
  sink : Shared Unit
  log : List Mark

/-- Surroundings whose sink is a batcher, with a log. A checkpoint is recorded also if the store refuses it. -/
def Logging : Answers Logged
  | w, .index d, r, w' => ∃ l, w.sink.Indexes d l r w'.sink ∧ w'.log = w.log ++ l.map .sink
  | w, .flush, r, w' => ∃ l, w.sink.Closes .flush l r w'.sink ∧ w'.log = w.log ++ l.map .sink
  | w, .close, r, w' => ∃ l, w.sink.Closes .close l r w'.sink ∧ w'.log = w.log ++ l.map .sink
  | w, .save _ c, _, w' => ∃ l, (Run w.sink l w'.sink ∧ ∀ h ∈ l, ∃ n v, h = .landed n v) ∧
      w'.log = w.log ++ l.map .sink ++ [.saved c]
  | w, _, _, w' => ∃ l, (Run w.sink l w'.sink ∧ ∀ h ∈ l, ∃ n v, h = .landed n v) ∧ w'.log = w.log ++ l.map .sink

namespace Cycle

/-- Every page ends with a flush and a checkpoint, and both tell of the faults of the page. -/
inductive Disclosed : List Mark → Prop where
  | nil : Disclosed []
  | page {log : List Mark} {l : List (Happening Unit)} {r : Except SinkFault Unit} {c : Checkpoint} :
      Disclosed log → (∀ h ∈ l, h.isTold = false) →
      (∀ n v, .landed n v ∈ l → ∃ batch lot, .launched () n batch lot ∈ l) →
      ((∃ n f, .landed n (.error f) ∈ l) → (∃ f, r = .error f) ∧ c.isClean = false) →
      Disclosed (log ++ l.map .sink ++ [.sink (.told () .flush r), .saved c])

/-- An element of a list stands in one of the parts of the list. -/
theorem append_eq_split {α : Type} {as bs before after : List α} {x : α} (h : as ++ bs = before ++ x :: after) :
    (∃ m, as = before ++ x :: m ∧ after = m ++ bs) ∨ ∃ m, before = as ++ m ∧ bs = m ++ x :: after := by
  rw [List.append_eq_append_iff] at h
  rcases h with ⟨m, hbefore, hbs⟩ | ⟨m, has, hm⟩
  · exact .inr ⟨m, hbefore, hbs⟩
  · cases m with
    | nil => exact .inr ⟨[], by simpa using has.symm, hm.symm⟩
    | cons y m =>
        cases hm
        exact .inl ⟨m, has, rfl⟩

/--
A batch that failed was sent on the same page. The flush at the end of the page is answered with a fault, and
the checkpoint that is saved next is not clean.
-/
theorem Disclosed.next {log before after : List Mark} {n : Nat} {f : SinkFault} (h : Disclosed log)
    (hlog : log = before ++ .sink (.landed n (.error f)) :: after) :
    ∃ earlier page mid f' c rest, before = earlier ++ page ∧
      after = mid ++ .sink (.told () .flush (.error f')) :: .saved c :: rest ∧
      (∀ x ∈ page ++ mid, x.isClosing = false) ∧ (∃ batch lot, .sink (.launched () n batch lot) ∈ page ++ mid) ∧
      c.isClean = false := by
  induction h generalizing after with
  | nil => simp at hlog
  | @page log l r c _ hl hsent hfault ih =>
      rcases append_eq_split hlog with ⟨m, hpage, rfl⟩ | ⟨m, -, hend⟩
      · rcases append_eq_split hpage with ⟨m, hbefore, rfl⟩ | ⟨m₁, hbefore, hmap⟩
        · -- the batch failed on an earlier page
          obtain ⟨earlier, page, mid, f', c', rest, hearlier, rfl, h⟩ := ih hbefore
          refine ⟨earlier, page, mid, f', c', ?_, hearlier, ?_, h⟩
          · exact rest ++ (l.map .sink ++ [.sink (.told () .flush r), .saved c])
          · simp
        · have hmem {h : Happening Unit} (hh : h ∈ l) : .sink h ∈ m₁ ++ m ∨ h = .landed n (.error f) := by
            have hh : Mark.sink h ∈ l.map .sink := List.mem_map_of_mem hh
            rw [hmap] at hh
            simp only [List.mem_append, List.mem_cons, Mark.sink.injEq] at hh ⊢
            grind
          have hlanded : .landed n (.error f) ∈ l := by
            have hlanded : Mark.sink (.landed n (.error f)) ∈ l.map .sink := by simp [hmap]
            simpa using hlanded
          obtain ⟨⟨f', rfl⟩, hc⟩ := hfault ⟨n, f, hlanded⟩
          obtain ⟨batch, lot, hlaunched⟩ := hsent n _ hlanded
          refine ⟨log, m₁, m, f', c, [], hbefore, rfl, ?_, ⟨batch, lot, (hmem hlaunched).resolve_right nofun⟩, hc⟩
          intro x hx
          have hx : x ∈ l.map Mark.sink := by
            simp only [hmap, List.mem_append, List.mem_cons] at hx ⊢
            grind
          obtain ⟨h, hh, rfl⟩ := List.mem_map.1 hx
          exact hl h hh
      · -- neither the answer of a flush nor a checkpoint is the answer to a batch
        have hmem : Mark.sink (.landed n (.error f)) ∈ [.sink (.told () .flush r), .saved c] := by simp [hend]
        simp at hmem

variable {s : CycleSettings} {w w' : Logged} {e : Effect}

/-! ## What holds on the way -/

/-- Between two pages: nothing is left to send or to tell, and every fault was told. -/
structure Level (w : Logged) : Prop where
  resting : Resting w.sink
  disclosed : Disclosed w.log

/-- On a page: what happened since the last flush is known to the batcher. -/
structure Rising (w : Logged) : Prop where
  since : ∃ log l, w.log = log ++ l.map .sink ∧ Disclosed log ∧ (∀ h ∈ l, h.isTold = false) ∧ Since l w.sink
  free : w.sink.errand () = .free
  isOpen : w.sink.batcher.closed = false

/-- The page was flushed, and its checkpoint is not saved yet. -/
def Flushed (r : Except SinkFault Unit) (w : Logged) : Prop :=
  ∃ log l, w.log = log ++ l.map .sink ++ [.sink (.told () .flush r)] ∧ Disclosed log ∧
    (∀ h ∈ l, h.isTold = false) ∧ Shared.Told l r w.sink ∧ w.sink.batcher.closed = false

theorem Level.rising (hw : Level w) : Rising w :=
  ⟨⟨w.log, [], by simp, hw.disclosed, nofun, hw.resting.rest.since⟩, hw.resting.rest.free, hw.resting.isOpen⟩

/-- Only calls of the sink and checkpoints are recorded. -/
theorem Level.elsewhere {r : e.Reply} (hw : Level w) (hr : Logging w e r w')
    (he : e.isQuiet = true ∨ ∃ q limit, e = .request q limit) : Level w' := by
  suffices hsame : w' = w from hsame ▸ hw
  cases e with
  | index _ | flush | close | save _ _ => rcases he with he | ⟨_, _, he⟩ <;> cases he
  | _ =>
      obtain ⟨l, ⟨hrun, hl⟩, hlog⟩ := hr
      cases hw.resting.nil_of_landed hrun hl
      exact Logged.ext hrun.eq_of_nil (by simpa using hlog)

theorem quiet_level : Quiet Logging Level := fun _ _ _ _ he hw hr => hw.elsewhere hr (.inl he)

theorem Rising.index (hw : Rising w) {d : Document} {r : Except SinkFault Unit}
    (hr : Logging w (.index d) r w') : Rising w' := by
  obtain ⟨l, hcall, hlog⟩ := hr
  obtain ⟨hrun, htold, hfree⟩ := hcall.run
  obtain ⟨log, l₀, hlog₀, hdisclosed, htold₀, hsince⟩ := hw.since
  refine ⟨⟨log, l₀ ++ l, ?_, hdisclosed, ?_, hsince.run hrun htold⟩, hfree, (hrun.closed_eq_of htold).trans hw.isOpen⟩
  · rw [hlog, hlog₀]
    simp
  · intro h hmem
    rcases List.mem_append.1 hmem with hmem | hmem
    · exact htold₀ h hmem
    · exact htold h hmem

theorem Rising.flush (hw : Rising w) {r : Except SinkFault Unit} (hr : Logging w .flush r w') : Flushed r w' := by
  obtain ⟨l, hcall, hlog⟩ := hr
  obtain ⟨log, l₀, hlog₀, hdisclosed, htold₀, hsince⟩ := hw.since
  obtain ⟨m, rfl, -, hm, htold⟩ := hcall.told_of hsince hw.isOpen
  refine ⟨log, l₀ ++ m, ?_, hdisclosed, ?_, htold, hcall.isOpen hw.isOpen⟩
  · rw [hlog, hlog₀]
    simp
  · intro h hmem
    rcases List.mem_append.1 hmem with hmem | hmem
    · exact htold₀ h hmem
    · exact (hm h hmem).1

/-- The checkpoint of a page of which the flush told a fault is not clean. -/
theorem Flushed.save {request : Request} {a : Attempt} {flushed : Except SinkFault Unit}
    {r : Except Store.Fault Unit} {key : String} (hw : Flushed flushed w)
    (hr : Logging w (.save key (checkpointAfter request a flushed)) r w') : Level w' := by
  obtain ⟨log, l₀, hlog₀, hdisclosed, htold₀, htold, hopen⟩ := hw
  have hresting : Resting w.sink := ⟨htold.rest, hopen⟩
  obtain ⟨l, ⟨hrun, hl⟩, hlog⟩ := hr
  cases hresting.nil_of_landed hrun hl
  refine ⟨hrun.eq_of_nil ▸ hresting, ?_⟩
  have hpage : w'.log = log ++ l₀.map .sink ++
      [.sink (.told () .flush flushed), .saved (checkpointAfter request a flushed)] := by
    rw [hlog, hlog₀]
    simp
  rw [hpage]
  refine .page hdisclosed htold₀ htold.sent ?_
  rintro hfault
  rw [← faultIn_ne_none, ← htold.answer] at hfault
  cases flushed with
  | ok _ => exact absurd rfl hfault
  | error f =>
      refine ⟨⟨f, rfl⟩, ?_⟩
      rw [Bool.eq_false_iff, ne_eq, isClean_checkpointAfter]
      rintro ⟨-, -, hok⟩
      cases hok

/-- A stage that begins between two pages ends between two pages. -/
theorem safe_stage_logging {st : Cycle × Report} {p : Program (Cycle × Report)} (hw : Level w)
    (hp : course s st = some p) : p.Safe Logging (fun _ => True) (fun _ => Level) w := by
  refine safe_stage (F := Rising) quiet_level (fun _ hw => hw.rising) ?_ (fun _ _ _ _ hw hr => hw.index hr) ?_ hp hw
  · intro w q limit r w' hw hr
    exact hw.elsewhere hr (.inr ⟨_, _, rfl⟩)
  · intro w request a flushed w₁ saved w₂ hw h₁ h₂
    exact (hw.flush h₁).save h₂

theorem level_of_leads {st st' : Cycle × Report} (hw : Level w) (hleads : (course s).Leads Logging st w st' w') :
    Level w' :=
  hleads.safe (fun _ _ _ hw hp => safe_stage_logging hw hp) hw

/-! ## A sample -/

/-- A source of which every record is the one document. -/
def sampleSource : CycleSettings :=
  ⟨"source", ⟨"http://repository", none, "oai_dc", ⟨none, none⟩, none⟩, ⟨⟨none, none⟩, 0⟩, .zero, .zero,
    fun _ => .ok [sampleDocument]⟩

/-- The sink of the sample after so many requests. -/
def sampleSink (endpoint : Address) (flying : List Flight) (fault : Option SinkFault) (n : Nat) (k : Errand Unit) :
    Shared Unit :=
  ⟨{ sampleBatcher endpoint 1 with flying := flying, fault := fault, sent := n }, [], fun _ => k, n⟩

theorem index_sample (endpoint : Address) :
    (Shared.start (sampleBatcher endpoint 1)).Indexes sampleDocument
      [.handed ⟨(), 0, sampleDocument⟩, .launched () 0 [sampleDocument] [⟨(), 0, sampleDocument⟩]] (.ok ())
      (sampleSink endpoint [⟨0, [sampleDocument]⟩] none 1 .free) := by
  have hrun := (handed_sample endpoint ()).snoc (.launch (i := ()) rfl rfl)
  exact .taken (l := []) hrun nofun (by simp [Happening.isInner]) rfl rfl

theorem flush_sample (endpoint : Address) (v : Except SinkFault Unit) :
    (sampleSink endpoint [⟨0, [sampleDocument]⟩] none 1 .free).Closes .flush
      [.landed 0 v, .called () .flush, .through (), .told () .flush v] v (sampleSink endpoint [] none 1 .free) := by
  have hlanded := (Run.nil (sampleSink endpoint [⟨0, [sampleDocument]⟩] none 1 .free)).snoc
    (.land v (List.mem_singleton_self _))
  have hthrough := (hlanded.snoc (.nothing (i := ()) (k := .flush) rfl rfl)).snoc (.through (i := ()) rfl rfl)
  have htold : Run (sampleSink endpoint [⟨0, [sampleDocument]⟩] none 1 .free)
      [.landed 0 v, .called () .flush, .through (), .told () .flush v] (sampleSink endpoint [] none 1 .free) := by
    cases v <;> exact hthrough.snoc (.tell (i := ()) rfl rfl)
  exact .told (l := [.landed 0 v]) (m := [.through ()]) htold (by simp [Happening.isInner]) (by simp [Happening.isInner])

/-- A page with one record. -/
def sampleAnswer : Page := ⟨200, [Record.empty], none, none, none⟩

/-- The log of a page with one record, of which the batch is answered. -/
def sampleLog (v : Except SinkFault Unit) (c : Checkpoint) : List Mark :=
  [.sink (.handed ⟨(), 0, sampleDocument⟩), .sink (.launched () 0 [sampleDocument] [⟨(), 0, sampleDocument⟩]),
    .sink (.landed 0 v), .sink (.called () .flush), .sink (.through ()), .sink (.told () .flush v), .saved c]

theorem logging_quiet {e : Effect} (he : e.isQuiet = true ∨ ∃ q limit, e = .request q limit) (w : Logged) (r : e.Reply) :
    Logging w e r w := by
  cases e with
  | index _ | flush | close | save _ _ => rcases he with he | ⟨_, _, he⟩ <;> cases he
  | _ => exact ⟨[], ⟨.nil _, nofun⟩, by simp⟩

theorem exists_ask {e : Effect} {next : e.Reply → Program (Cycle × Report)} {w w' w'' : Logged} {r : e.Reply}
    (hr : Logging w e r w') (h : ∃ st, (next r).Ends Logging w' st w'') : ∃ st, (Program.ask e next).Ends Logging w st w'' := by
  obtain ⟨st, h⟩ := h
  exact ⟨st, .ask hr h⟩

/-- A page of a cycle, with one record, of which the batch is answered. -/
theorem exists_sample (v : Except SinkFault Unit) :
    ∃ b st st' w, Batcher.of (inBatches 1) 1 = .ok b ∧
      (course sampleSource).Leads Logging st ⟨Shared.start b, []⟩ st' w ∧
      w.log = sampleLog v (checkpointAfter sampleSource.template ⟨200, none, none⟩ v) := by
  obtain ⟨endpoint, hb⟩ := of_inBatches 1
  let c := checkpointAfter sampleSource.template ⟨200, none, none⟩ v
  let w₀ : Logged := ⟨Shared.start (sampleBatcher endpoint 1), []⟩
  let w₁ : Logged := ⟨sampleSink endpoint [⟨0, [sampleDocument]⟩] none 1 .free, (sampleLog v c).take 2⟩
  let w₂ : Logged := ⟨sampleSink endpoint [] none 1 .free, (sampleLog v c).take 6⟩
  let w₃ : Logged := ⟨sampleSink endpoint [] none 1 .free, sampleLog v c⟩
  have hindex : Logging w₀ (.index sampleDocument) (.ok ()) w₁ := ⟨_, index_sample endpoint, rfl⟩
  have hflush : Logging w₁ .flush v w₂ := ⟨_, flush_sample endpoint v, rfl⟩
  have hsave : Logging w₂ (.save "source" c) (.ok ()) w₃ := ⟨[], ⟨.nil _, nofun⟩, rfl⟩
  have hfinish (report : Report) : ∃ st, (finish sampleSource .empty report).Ends Logging w₃ st w₃ := by
    refine exists_ask (e := .clock) (r := ⟨0, 0⟩) (logging_quiet (.inl rfl) w₃ _) ?_
    refine exists_ask (e := .saveTally _ _) (r := .ok ()) (logging_quiet (.inl rfl) w₃ _) ?_
    exact ⟨_, .done _ w₃⟩
  have hpage : ∃ st, (page sampleSource .empty sampleSource.template .empty).Ends Logging w₀ st w₃ := by
    refine exists_ask (e := .cancelled) (r := false) (logging_quiet (.inl rfl) w₀ _) ?_
    refine exists_ask (e := .request _ _) (r := .ok sampleAnswer) (logging_quiet (.inr ⟨_, _, rfl⟩) w₀ _) ?_
    refine exists_ask (e := .index _) (r := .ok ()) hindex ?_
    refine exists_ask (e := .flush) hflush ?_
    refine exists_ask (e := .save _ _) (r := .ok ()) hsave ?_
    cases v <;> exact hfinish _
  obtain ⟨st, hpage⟩ := hpage
  exact ⟨_, (.paging .empty sampleSource.template, .empty), st, w₃, hb, .stage rfl hpage (.refl _ _), rfl⟩

/-! ## The result -/

/--
A reply to a batch with a status of the 200s that can be read. It counts as a refusal exactly if its flag is up
and one of its items tells of a fault. In a cycle, the batch was then sent on the page on which the reply
comes; the flush that comes next is answered with a fault, and the checkpoint that is saved right after it is
not clean.
-/
theorem rejected_iff {r : Response} {a : Bulk.Answer} (hok : r.isSuccess = true)
    (hread : Bulk.Answer.read? r.body = some a) (endpoint : Address) (timeout : Span) (batch : List Document) :
    ((∃ f, Bulk.verdict endpoint timeout batch.length (.answered r) = .error f) ↔ a.errors = true ∧ a.Faulty) ∧
    (a.errors = true → a.Faulty →
      (∃ first ∈ a.failures, Bulk.verdict endpoint timeout batch.length (.answered r) =
        .error (.rejected a.failures.length batch.length first.reason)) ∧
      ∀ (s : CycleSettings) st w st' w', Resting w → (course s).Leads Logging st ⟨w, []⟩ st' w' →
        ∀ n before after,
          w'.log = before ++ .sink (.landed n (Bulk.verdict endpoint timeout batch.length (.answered r))) :: after →
          ∃ earlier page mid f c rest, before = earlier ++ page ∧
            after = mid ++ .sink (.told () .flush (.error f)) :: .saved c :: rest ∧
            (∀ x ∈ page ++ mid, x.isClosing = false) ∧ (∃ sent lot, .sink (.launched () n sent lot) ∈ page ++ mid) ∧
            c.isClean = false) := by
  rw [Bulk.verdict_answered hok hread]
  refine ⟨Bulk.Answer.refuses_iff, ?_⟩
  intro herrors hfaulty
  obtain ⟨first, hfirst, hverdict⟩ := Bulk.Answer.verdict_of_faulty batch.length herrors hfaulty
  refine ⟨⟨first, hfirst, hverdict⟩, ?_⟩
  intro s st w st' w' hw hleads n before after hlog
  rw [hverdict] at hlog
  have hlevel : Level w' := level_of_leads ⟨hw, .nil⟩ hleads
  exact hlevel.disclosed.next hlog

/-- A reply with the status 200. -/
def replying (text : String) : Response := ⟨200, [], text.toUTF8.toList⟩

/-- The flag is up, and the one document was not taken. -/
def refusing : Response := replying "\x7b\"errors\":true,\"items\":[\x7b\"index\":\x7b\"status\":500\x7d\x7d]\x7d"

/-- The flag is up, and nothing is said of any document. -/
def flagging : Response := replying "\x7b\"errors\":true\x7d"

/-- The one document was not taken, and the flag is down. -/
def itemizing : Response := replying "\x7b\"errors\":false,\"items\":[\x7b\"index\":\x7b\"status\":500\x7d\x7d]\x7d"

/-- A reply is read, and this is what it says. -/
theorem exists_answer (r : Response) (flag faulty : Bool)
    (h : ((Bulk.Answer.read? r.body).any fun a => a.errors == flag && a.failures.isEmpty == !faulty) = true) :
    ∃ a, Bulk.Answer.read? r.body = some a ∧ a.errors = flag ∧ (a.Faulty ↔ faulty = true) := by
  obtain ⟨a, hread, ha⟩ := (Option.any_eq_true _ _).1 h
  rw [Bool.and_eq_true, beq_iff_eq, beq_iff_eq] at ha
  refine ⟨a, hread, ha.1, ?_⟩
  rw [Bulk.Answer.faulty_iff, ne_eq, ← List.isEmpty_iff, ha.2]
  cases faulty <;> simp

/-- A page of which the batch is refused: its checkpoint is not clean. -/
theorem rejected_iff_refusing :
    ∃ b f st st' w' c, Batcher.of (inBatches 1) 1 = .ok b ∧
      Bulk.verdict b.endpoint b.timeout [sampleDocument].length (.answered refusing) = .error f ∧
      (course sampleSource).Leads Logging st ⟨Shared.start b, []⟩ st' w' ∧
      .sink (.landed 0 (.error f)) ∈ w'.log ∧ .saved c ∈ w'.log ∧ c.isClean = false := by
  obtain ⟨a, hread, herrors, hfaulty⟩ := exists_answer refusing true true (by decide +kernel)
  obtain ⟨b, st, st', w', hb, hleads, hlog⟩ := exists_sample (a.verdict 1)
  obtain ⟨-, hrefused⟩ := rejected_iff rfl hread b.endpoint b.timeout [sampleDocument]
  obtain ⟨⟨first, -, hverdict⟩, hcycle⟩ := hrefused herrors (hfaulty.2 rfl)
  have hanswer : a.verdict 1 = Bulk.verdict b.endpoint b.timeout [sampleDocument].length (.answered refusing) :=
    (Bulk.verdict_answered rfl hread _ _ _).symm
  rw [hanswer] at hlog
  let log := w'.log
  have hsplit : log = log.take 2 ++
      .sink (.landed 0 (Bulk.verdict b.endpoint b.timeout [sampleDocument].length (.answered refusing))) :: log.drop 3 := by
    simp only [log, hlog]
    rfl
  obtain ⟨-, -, mid, f, c, rest, -, hafter, -, -, hc⟩ :=
    hcycle sampleSource st _ st' w' (resting_start hb) hleads 0 _ _ hsplit
  refine ⟨b, _, st, st', w', c, hb, hverdict, hleads, ?_, ?_, hc⟩
  · rw [hlog, hverdict]
    simp [sampleLog]
  · have hmem : .saved c ∈ log.drop 3 := by simp [hafter]
    exact List.mem_of_mem_drop hmem

/--
Answers that tell of a fault and count as none: the flag alone, and an item alone. The flush tells no fault, and
the checkpoint that is saved after it is clean.
-/
theorem overlooked :
    ∃ b flagged faulty, Batcher.of (inBatches 1) 1 = .ok b ∧
      Bulk.Answer.read? flagging.body = some flagged ∧ flagged.errors = true ∧
      Bulk.Answer.read? itemizing.body = some faulty ∧ faulty.Faulty ∧
      Bulk.verdict b.endpoint b.timeout 1 (.answered flagging) = .ok () ∧
      Bulk.verdict b.endpoint b.timeout 1 (.answered itemizing) = .ok () ∧
      ∃ st st' w' c, (course sampleSource).Leads Logging st ⟨Shared.start b, []⟩ st' w' ∧
        w'.log = sampleLog (.ok ()) c ∧ c.isClean = true := by
  obtain ⟨a, hread, herrors, hfaulty⟩ := exists_answer flagging true false (by decide +kernel)
  obtain ⟨a', hread', herrors', hfaulty'⟩ := exists_answer itemizing false true (by decide +kernel)
  obtain ⟨b, st, st', w', hb, hleads, hlog⟩ := exists_sample (.ok ())
  refine ⟨b, a, a', hb, hread, herrors, hread', hfaulty'.2 rfl, ?_, ?_, st, st', w', _, hleads, hlog, rfl⟩
  · rw [Bulk.verdict_answered rfl hread]
    apply Bulk.Answer.verdict_eq_ok
    rintro ⟨-, h⟩
    cases hfaulty.1 h
  · rw [Bulk.verdict_answered rfl hread']
    apply Bulk.Answer.verdict_eq_ok
    rintro ⟨h, -⟩
    cases herrors'.symm.trans h

end Cycle

end Harvesting
