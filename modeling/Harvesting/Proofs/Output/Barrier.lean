import Harvesting.Proofs.Output.Shared

/-!
# What a flush tells of the documents before it

A client hands over a document and later flushes the batcher. When the flush tells of no fault, the request
with the document was answered without one, unless another client came between: it was told the fault, or
it took the document out of the buffer and had not sent it yet.

* `Answered`, `Acknowledged` — the request with a document was answered;
* `Fate` — where a document is at any time after it was handed over;
* `Over` — what is known of it once its client is through with waiting;
* `Shared.acknowledged_of_flush` — the result, and `Shared.flushed_unacknowledged` — a flush that tells of no
  fault although the request with the document failed.
-/

namespace Harvesting.Shared

variable {ι : Type} {e : Entry ι} {v : Except SinkFault Unit} {l since : List (Happening ι)}

/-! ## Answers -/

/-- The document was part of the request with this number. -/
def Carries (l : List (Happening ι)) (n : Nat) (e : Entry ι) : Prop :=
  ∃ i batch lot, .launched i n batch lot ∈ l ∧ e ∈ lot ∧ e.document ∈ batch

/-- The request with the document was answered, and this is what happened since then. -/
def Answered (e : Entry ι) (v : Except SinkFault Unit) (l since : List (Happening ι)) : Prop :=
  ∃ before n, l = before ++ .landed n v :: since ∧ Carries before n e

/-- The request with the document was a success. -/
def Acknowledged (e : Entry ι) (l : List (Happening ι)) : Prop := ∃ since, Answered e (.ok ()) l since

/-- Another client was told a fault. -/
def ToldElsewhere (e : Entry ι) (l : List (Happening ι)) : Prop :=
  ∃ j k f, j ≠ e.client ∧ .told j k (.error f) ∈ l

/-- The request with the document failed, and its fault is kept, or another client was told one since then. -/
def Failed (e : Entry ι) (l : List (Happening ι)) (kept : Prop) : Prop :=
  ∃ f since, Answered e (.error f) l since ∧ (kept ∨ ToldElsewhere e since)

theorem Carries.append {n : Nat} (h : Carries l n e) (l' : List (Happening ι)) : Carries (l ++ l') n e := by
  obtain ⟨i, batch, lot, hmem, hlot⟩ := h
  exact ⟨i, batch, lot, List.mem_append_left _ hmem, hlot⟩

theorem Answered.append (h : Answered e v l since) (l' : List (Happening ι)) :
    Answered e v (l ++ l') (since ++ l') := by
  obtain ⟨before, n, rfl, hcarries⟩ := h
  exact ⟨before, n, by simp, hcarries⟩

/-- Someone who is told is another client, if the document's own client is not told. -/
theorem toldElsewhere_of_told {h : Happening ι} (htold : ∀ k r, h ≠ .told e.client k r)
    (h' : ∃ i k f, h = .told i k (.error f)) : ToldElsewhere e [h] := by
  obtain ⟨i, k, f, rfl⟩ := h'
  refine ⟨i, k, f, ?_, List.mem_singleton_self _⟩
  rintro rfl
  exact htold k _ rfl

theorem answered_landed {n : Nat} (h : Carries l n e) : Answered e v (l ++ [.landed n v]) [] := ⟨l, n, rfl, h⟩

theorem Acknowledged.append (h : Acknowledged e l) (l' : List (Happening ι)) : Acknowledged e (l ++ l') := by
  obtain ⟨since, h⟩ := h
  exact ⟨since ++ l', h.append l'⟩

theorem Acknowledged.landed (h : Acknowledged e l) :
    ∃ n, .landed n (.ok ()) ∈ l := by
  obtain ⟨since, before, n, rfl, -⟩ := h
  exact ⟨n, by simp⟩

/-- A fault that is kept stays so until another client is told. -/
theorem Failed.append {kept kept' : Prop} (h : Failed e l kept) {l' : List (Happening ι)}
    (hkept : kept → kept' ∨ ToldElsewhere e l') : Failed e (l ++ l') kept' := by
  obtain ⟨f, since, hanswered, h⟩ := h
  refine ⟨f, since ++ l', hanswered.append l', ?_⟩
  have hsince {l'' : List (Happening ι)} (hsub : ∀ h ∈ l'', h ∈ since ++ l') (h : ToldElsewhere e l'') :
      ToldElsewhere e (since ++ l') := by
    obtain ⟨j, k, f, hj, hmem⟩ := h
    exact ⟨j, k, f, hj, hsub _ hmem⟩
  rcases h with h | h
  · exact (hkept h).imp_right (hsince fun _ => List.mem_append_right _)
  · exact .inr (hsince (fun _ => List.mem_append_left _) h)

/-! ## A document on its way -/

/-- The client is to send the document in a batch. -/
def HeldBy (w : Shared ι) (j : ι) (e : Entry ι) : Prop :=
  ∃ batch lot closing, w.errand j = .sending batch lot closing ∧ e ∈ lot

/-- Where a document is after it was handed over. -/
inductive Fate (e : Entry ι) (l : List (Happening ι)) (w : Shared ι) : Prop where
  | waiting : e ∈ w.waiting → Fate e l w
  | held {j : ι} : w.HeldBy j e → Fate e l w
  | flying {f : Flight} : f ∈ w.batcher.flying → Carries l f.number e → Fate e l w
  | acknowledged : Acknowledged e l → Fate e l w
  | failed : Failed e l (w.batcher.joined ≠ none) → Fate e l w

variable [DecidableEq ι] {w w' : Shared ι} {h : Happening ι} {j : ι}

/-- A document that waits goes on waiting, until a client takes the buffer to send it. -/
theorem Step.waiting (hstep : Step w h w') (he : e ∈ w.waiting) :
    e ∈ w'.waiting ∨ ∃ i, w'.HeldBy i e := by
  cases hstep with
  | hold _ _ _ => exact .inl (List.mem_append_left _ he)
  | @fill i _ _ _ _ _ _ => exact .inr ⟨i, _, _, _, errand_turn_self, List.mem_append_left _ he⟩
  | @rest i _ _ _ _ _ => exact .inr ⟨i, _, _, _, errand_turn_self, he⟩
  | _ => exact .inl he

/-- A client that is to send a batch turns to nothing else before it is sent. -/
theorem Step.held (hstep : Step w h w') (hw : w.Faithful) (hopen : w.batcher.closed = false)
    (he : w.HeldBy j e) : w'.HeldBy j e ∨ ∃ f ∈ w'.batcher.flying, Carries [h] f.number e := by
  obtain ⟨batch, lot, closing, hsending, hmem⟩ := he
  by_cases hj : h.client? = some j
  · cases hstep with
    | launch hbatch _ =>
        cases hj
        cases hbatch.symm.trans hsending
        have hdocument : e.document ∈ batch := by
          rw [← hw.batch _ _ _ _ hsending]
          exact List.mem_map_of_mem hmem
        refine .inr ⟨⟨w.batcher.sent, batch⟩, by simp, ?_⟩
        exact ⟨j, batch, lot, List.mem_singleton_self _, hmem, hdocument⟩
    | look _ => exact .inl ⟨batch, lot, closing, hsending, hmem⟩
    | bar _ hclosed | barClosing _ hclosed | refuse _ hclosed =>
        rw [hclosed] at hopen
        cases hopen
    | land _ _ => cases hj
    | hold herrand _ _ | fill herrand _ _ | rest herrand _ | nothing herrand _ | through herrand _
    | tell herrand _ =>
        cases hj
        cases herrand.symm.trans hsending
  · exact .inl ⟨batch, lot, closing, (hstep.errand_of_ne hj).trans hsending, hmem⟩

/-- Where a document is after a step, unless its own client is told something. -/
theorem Step.fate (hstep : Step w h w') (hw : w.Faithful) (hopen : w'.batcher.closed = false)
    (htold : ∀ k r, h ≠ .told e.client k r) (hfate : Fate e l w) : Fate e (l ++ [h]) w' := by
  cases hfate with
  | waiting he =>
      rcases hstep.waiting he with he | ⟨i, he⟩
      · exact .waiting he
      · exact .held he
  | held he =>
      rcases hstep.held hw (hstep.isOpen hopen) he with he | ⟨f, hf, i, batch, lot, hlaunched, he⟩
      · exact .held he
      · exact .flying hf ⟨i, batch, lot, List.mem_append_right _ hlaunched, he⟩
  | flying hf hcarries =>
      rcases hstep.moves.flying hf with hf | ⟨v, rfl, hjoined⟩
      · exact .flying hf (hcarries.append _)
      · cases v with
        | ok _ => exact .acknowledged ⟨[], answered_landed hcarries⟩
        | error f =>
            -- the fault of the answer is kept, or one that came before it
            refine .failed ⟨f, [], answered_landed hcarries, .inl ?_⟩
            rw [hjoined]
            simp [Batcher.faultOf?]
  | acknowledged hack => exact .acknowledged (hack.append _)
  | failed hfailed =>
      refine .failed (hfailed.append ?_)
      intro hjoined
      exact (hstep.moves.joined_ne hjoined).imp_right (toldElsewhere_of_told htold)

/-! ## A client that closes -/

/-- Another client had the document in a batch and had not sent it when the document's own client was through. -/
def Overtaken (w₁ : Shared ι) (e : Entry ι) (l : List (Happening ι)) : Prop :=
  ∃ before since v j, l = before ++ .through e.client :: since ∧ Run w₁ before v ∧ j ≠ e.client ∧ v.HeldBy j e

/-- What is known of a document once its client is through with waiting. -/
inductive Over (w₁ : Shared ι) (e : Entry ι) (l : List (Happening ι)) (w : Shared ι) : Prop where
  | acknowledged : Acknowledged e l → Over w₁ e l w
  | failed : Failed e l (w.batcher.fault ≠ none) → Over w₁ e l w
  | overtaken : Overtaken w₁ e l → Over w₁ e l w

theorem Overtaken.append (hover : Overtaken w₁ e l) (l' : List (Happening ι)) : Overtaken w₁ e (l ++ l') := by
  obtain ⟨before, since, v, j, rfl, h⟩ := hover
  exact ⟨before, since ++ l', v, j, by simp, h⟩

/-- What is known of a document that was handed over since its client was told the last time. -/
structure Tracked (w₁ : Shared ι) (e : Entry ι) (l : List (Happening ι)) (w : Shared ι) : Prop where
  run : Run w₁ l w
  faithful : w.Faithful
  known : e.number < w.count
  fate : Fate e l w
  gone : (w.errand e.client).closing? ≠ none → e ∉ w.waiting
  settled : ∀ k, w.errand e.client = .settling k → Over w₁ e l w

/-- What is known once the client is through stays so until the client is told. -/
theorem Over.step (hover : Over w₁ e l w) (hstep : Step w h w') (htold : ∀ k r, h ≠ .told e.client k r) :
    Over w₁ e (l ++ [h]) w' := by
  cases hover with
  | acknowledged hack => exact .acknowledged (hack.append _)
  | overtaken hover => exact .overtaken (hover.append _)
  | failed hfailed =>
      refine .failed (hfailed.append ?_)
      intro hfault
      exact (hstep.moves.fault_ne hfault).imp_right (toldElsewhere_of_told htold)

/-- When its client is through, a document is neither in the buffer nor on its way. -/
theorem Tracked.through (htracked : Tracked w₁ e l w) {k : Closing} (hwaits : w.errand e.client = .awaiting k)
    (hflying : w.batcher.flying = []) (hjoin : w'.batcher = w.batcher.join) :
    Over w₁ e (l ++ [.through e.client]) w' := by
  cases htracked.fate with
  | waiting he =>
      refine absurd he (htracked.gone ?_)
      rw [hwaits]
      nofun
  | @held j he =>
      refine .overtaken ⟨l, [], w, j, rfl, htracked.run, ?_, he⟩
      rintro rfl
      obtain ⟨batch, lot, closing, hsending, -⟩ := he
      cases hwaits.symm.trans hsending
  | flying hf _ =>
      rw [hflying] at hf
      cases hf
  | acknowledged hack => exact .acknowledged (hack.append _)
  | failed hfailed =>
      refine .failed (hfailed.append fun hjoined => .inl ?_)
      rw [hjoin, Batcher.fault_join]
      exact hjoined

theorem Tracked.step (htracked : Tracked w₁ e l w) (hstep : Step w h w') (hopen : w'.batcher.closed = false)
    (htold : ∀ k r, h ≠ .told e.client k r) : Tracked w₁ e (l ++ [h]) w' where
  run := htracked.run.snoc hstep
  faithful := hstep.faithful htracked.faithful
  known := Nat.lt_of_lt_of_le htracked.known hstep.count_le
  fate := hstep.fate htracked.faithful hopen htold htracked.fate
  gone hclosing he := by
    rcases hstep.closing htracked.faithful hclosing with hclosing | hempty
    · rcases hstep.mem_waiting he with he | hnew
      · exact htracked.gone hclosing he
      · exact absurd htracked.known (hnew.1 ▸ Nat.lt_irrefl _)
    · rw [hempty] at he
      cases he
  settled k hsettling := by
    rcases hstep.settling hsettling with hsettling | ⟨rfl, hwaits, hflying, hjoin⟩
    · exact (htracked.settled k hsettling).step hstep htold
    · exact htracked.through hwaits hflying hjoin

/-- A document that was just handed over. -/
theorem tracked_handed (hw : w.Faithful) (hstep : Step w (.handed e) w') : Tracked w' e [] w' := by
  have hw' := hstep.faithful hw
  cases hstep with
  | hold hfree _ _ =>
      exact
        { run := .nil _
          faithful := hw'
          known := Nat.lt_succ_self _
          fate := .waiting (List.mem_append_right _ (List.mem_singleton_self _))
          gone := fun hclosing => absurd (congrArg Errand.closing? hfree) hclosing
          settled := fun k hsettling => by cases hfree.symm.trans hsettling }
  | fill _ _ _ =>
      exact
        { run := .nil _
          faithful := hw'
          known := Nat.lt_succ_self _
          fate := .held ⟨_, _, _, errand_turn_self, List.mem_append_right _ (List.mem_singleton_self _)⟩
          gone := fun _ => nofun
          settled := fun k hsettling => by cases errand_turn_self.symm.trans hsettling }

theorem Run.tracked {since : List (Happening ι)} (hrun : Run w since w') (hopen : w'.batcher.closed = false)
    (htold : ∀ k r, .told e.client k r ∉ since) (htracked : Tracked w₁ e l w) :
    Tracked w₁ e (l ++ since) w' := by
  induction hrun with
  | nil => simpa using htracked
  | @snoc v v' since h _ hstep ih =>
      rw [← List.append_assoc]
      have hv := ih (hstep.isOpen hopen) (fun k r hmem => htold k r (List.mem_append_left _ hmem))
      apply hv.step hstep hopen
      rintro k r rfl
      exact htold k r (List.mem_append_right _ (List.mem_singleton_self _))

/--
A flush that tells of no fault. The request with a document that its client handed over before was a
success, unless another client was told that it failed, or another client had the document in a batch that
it had not sent yet.
-/
theorem acknowledged_of_flush {s : SinkSettings} {processors : Nat} {b : Batcher} {before since : List (Happening ι)}
    (hb : Batcher.of s processors = .ok b) (hbefore : Run (start b) (before ++ [.handed e]) w)
    (hrun : Run w (since ++ [.told e.client .flush (.ok ())]) w') (hopen : w'.batcher.closed = false)
    (htold : ∀ k r, .told e.client k r ∉ since) :
    Acknowledged e since ∨
      (∃ f later, Answered e (.error f) since later ∧ ToldElsewhere e later) ∨ Overtaken w e since := by
  obtain ⟨v₀, hv₀, hhanded⟩ := hbefore.last
  obtain ⟨v, hv, htell⟩ := hrun.last
  have hfaithful := hv₀.faithful (faithful_start (Batcher.of_eq_ok hb).1)
  have htracked := hv.tracked (htell.isOpen hopen) htold (tracked_handed hfaithful hhanded)
  rw [List.nil_append] at htracked
  cases htell with
  | tell hsettling hfault =>
      cases htracked.settled _ hsettling with
      | acknowledged hack => exact .inl hack
      | overtaken hover => exact .inr (.inr hover)
      | failed hfailed =>
          obtain ⟨f, later, hanswered, hkept | helsewhere⟩ := hfailed
          · -- a fault that is kept would have been told
            exact absurd (Batcher.takeFault_eq_ok hfault).1 hkept
          · exact .inr (.inl ⟨f, later, hanswered, helsewhere⟩)

/-- A client that is told has nothing to send. -/
theorem Step.free_of_told {k : Closing} {r : Except SinkFault Unit} (hstep : Step w (.told j k r) w') :
    w'.errand j = .free := by
  cases hstep with
  | barClosing _ _ => exact errand_turn_self
  | tell _ _ => exact errand_turn_self

/-- The document of the first of two clients. -/
def firstEntry : Entry Bool := ⟨false, 0, sampleDocument⟩

/-- The first client's document waits for another one. -/
def sampleWaiting (endpoint : Address) : Shared Bool :=
  ⟨{ sampleBatcher endpoint 2 with buffer := [sampleDocument] }, [firstEntry], fun _ => .free, 1⟩

/-- The second client sends the documents of both, is told that they are written, and then the first one flushes. -/
def sentTogether : List (Happening Bool) :=
  [.handed ⟨true, 1, sampleDocument⟩,
    .launched true 0 [sampleDocument, sampleDocument] [firstEntry, ⟨true, 1, sampleDocument⟩], .landed 0 (.ok ()),
    .called true .flush, .through true] ++ [.told true .flush (.ok ())] ++ [.called false .flush]

theorem run_sentTogether (endpoint : Address) :
    ∃ w, Run (sampleWaiting endpoint) (sentTogether ++ [.through false] ++ [.told false .flush (.ok ())]) w ∧
      w.batcher.closed = false := by
  have hfull := (Run.nil (sampleWaiting endpoint)).snoc (.fill (i := true) (d := sampleDocument) rfl rfl rfl)
  have hlaunched := hfull.snoc (.launch (i := true) rfl rfl)
  have hlanded := hlaunched.snoc (.land (.ok ()) (List.mem_singleton_self _))
  have hcalled := hlanded.snoc (.nothing (i := true) (k := .flush) rfl rfl)
  have hthrough := hcalled.snoc (.through (i := true) rfl rfl)
  have htold := hthrough.snoc (.tell (i := true) rfl rfl)
  have hcalled' := htold.snoc (.nothing (i := false) (k := .flush) rfl rfl)
  have hthrough' := hcalled'.snoc (.through (i := false) rfl rfl)
  exact ⟨_, hthrough'.snoc (.tell (i := false) rfl rfl), rfl⟩

/-- The second client was told before the first one flushed, so it had nothing left to send. -/
theorem not_overtaken_sentTogether {w : Shared Bool} : ¬ Overtaken w firstEntry (sentTogether ++ [.through false]) := by
  rintro ⟨before, later, v, j, hsplit, hv, hj, batch, lot, closing, hsending, -⟩
  obtain rfl : before = sentTogether := by
    rcases List.eq_nil_or_concat later with rfl | ⟨later, h, rfl⟩
    · exact (List.append_inj' hsplit rfl).1.symm
    · have hmem : .through firstEntry.client ∈ sentTogether := by
        rw [List.concat_eq_append, ← List.cons_append, ← List.append_assoc] at hsplit
        rw [(List.append_inj' hsplit rfl).1]
        simp
      simp [sentTogether, firstEntry] at hmem
  obtain ⟨v₁, hv₁, hcall⟩ := hv.last
  obtain ⟨v₀, -, htell⟩ := hv₁.last
  obtain rfl : j = true := by simpa [firstEntry] using hj
  rw [hcall.errand_of_ne (by simp [Happening.client?]), htell.free_of_told] at hsending
  cases hsending

/-- The documents of two clients are written in one request. -/
theorem acknowledged_of_flush_sample :
    ∃ (b : Batcher) (w w' : Shared Bool) (e : Entry Bool) (since : List (Happening Bool)),
      Batcher.of (inBatches 2) 1 = .ok b ∧ Run (start b) ([] ++ [.handed e]) w ∧
        Run w (since ++ [.told e.client .flush (.ok ())]) w' ∧ w'.batcher.closed = false ∧
          (∀ k r, .told e.client k r ∉ since) ∧
            (∃ batch lot, .launched (!e.client) 0 batch lot ∈ since ∧ e ∈ lot) ∧ Acknowledged e since := by
  obtain ⟨endpoint, hb⟩ := of_inBatches 2
  obtain ⟨w, hrun, hopen⟩ := run_sentTogether endpoint
  have hhanded : Run (start (sampleBatcher endpoint 2)) ([] ++ [.handed firstEntry]) (sampleWaiting endpoint) :=
    .single (.hold (i := false) (d := sampleDocument) rfl rfl rfl)
  have hquiet : ∀ k r, .told firstEntry.client k r ∉ sentTogether ++ [.through false] := by
    simp [sentTogether, firstEntry]
  have hsent : ∃ batch lot, .launched (!firstEntry.client) 0 batch lot ∈ sentTogether ++ [.through false] ∧
      firstEntry ∈ lot := ⟨_, _, .tail _ (.head _), .head _⟩
  refine ⟨_, _, w, firstEntry, _, hb, hhanded, hrun, hopen, hquiet, hsent, ?_⟩
  rcases acknowledged_of_flush hb hhanded hrun hopen hquiet with hack | ⟨f, later, ⟨before, n, hfailed, -⟩, -⟩ | hover
  · exact hack
  · have hmem : .landed n (.error f) ∈ sentTogether ++ [.through false] := by simp [hfailed]
    simp [sentTogether] at hmem
  · exact absurd hover not_overtaken_sentTogether

/--
The request with a document fails, another client is told so by its flush, and the flush of the client that
handed the document over tells of no fault.
-/
theorem flushed_unacknowledged :
    ∃ (b : Batcher) (w w' : Shared Bool) (e : Entry Bool) (since : List (Happening Bool)),
      Batcher.of (inBatches 1) 1 = .ok b ∧ Run (start b) ([] ++ [.handed e]) w ∧
        Run w (since ++ [.told e.client .flush (.ok ())]) w' ∧ w'.batcher.closed = false ∧
          (∀ k r, .told e.client k r ∉ since) ∧ ¬ Acknowledged e since := by
  obtain ⟨endpoint, hb⟩ := of_inBatches 1
  let e : Entry Bool := ⟨false, 0, sampleDocument⟩
  let f : SinkFault := .status 500 "x"
  let since : List (Happening Bool) :=
    [.launched false 0 [sampleDocument] [e], .landed 0 (.error f), .called true .flush, .through true,
      .told true .flush (.error f), .called false .flush, .through false]
  have hlaunched := (Run.nil (sampleHeld endpoint false)).snoc (.launch (i := false) rfl rfl)
  have hlanded := hlaunched.snoc (.land (.error f) (List.mem_singleton_self _))
  -- the other client flushes first
  have hcalled := hlanded.snoc (.nothing (i := true) (k := .flush) rfl rfl)
  have hthrough := hcalled.snoc (.through (i := true) rfl rfl)
  have htold := hthrough.snoc (.tell (i := true) rfl rfl)
  have hcalled' := htold.snoc (.nothing (i := false) (k := .flush) rfl rfl)
  have hthrough' := hcalled'.snoc (.through (i := false) rfl rfl)
  have hrun : Run (sampleHeld endpoint false) (since ++ [.told false .flush (.ok ())]) _ :=
    hthrough'.snoc (.tell (i := false) rfl rfl)
  refine ⟨_, _, _, e, since, hb, handed_sample endpoint false, hrun, rfl, by simp [since, e], ?_⟩
  intro hack
  obtain ⟨n, hlanded⟩ := hack.landed
  simp [since] at hlanded

/-- A flush that tells of no fault while another client has yet to send the document. -/
theorem flushed_unsent :
    ∃ (b : Batcher) (w w' : Shared Bool) (e : Entry Bool) (since : List (Happening Bool)),
      Batcher.of (inBatches 2) 1 = .ok b ∧ Run (start b) ([] ++ [.handed e]) w ∧
        Run w (since ++ [.told e.client .flush (.ok ())]) w' ∧ ∀ i n batch lot, .launched i n batch lot ∉ since := by
  obtain ⟨endpoint, hb⟩ := of_inBatches 2
  let e : Entry Bool := ⟨false, 0, sampleDocument⟩
  let since : List (Happening Bool) :=
    [.handed ⟨true, 1, sampleDocument⟩, .called false .flush, .through false]
  have hhanded := (Run.nil (start (sampleBatcher endpoint 2))).snoc
    (.hold (i := false) (d := sampleDocument) rfl rfl rfl)
  have hfull := (Run.nil (⟨{ sampleBatcher endpoint 2 with buffer := [sampleDocument] }, [e],
    fun _ => .free, 1⟩ : Shared Bool)).snoc (.fill (i := true) (d := sampleDocument) rfl rfl rfl)
  have hcalled := hfull.snoc (.nothing (i := false) (k := .flush) rfl rfl)
  have hthrough := hcalled.snoc (.through (i := false) rfl rfl)
  exact ⟨_, _, _, e, since, hb, hhanded, hthrough.snoc (.tell (i := false) rfl rfl), by simp [since]⟩

end Harvesting.Shared
