import Harvesting.Proofs.Output.Delivery

/-!
# Documents in batches

A single client hands over documents one after the other and flushes now and then. Whatever the answers
to the batches, the batches that were sent and what is left in the buffer are the documents in their
order. The buffer is sent when it is full, and by a flush before that.

* `handed`, `sent`, `contents` — the documents that were handed over, the batches that were sent, and the
  documents of batches;
* `Complete` — nothing was lost, doubled or moved; `Run.complete` — this holds on every run;
* `Sized` — a batch is full, or less than full when a flush sends it; `Run.sized` — so it stays;
* `SinkCall`, `Calls` — the calls of a client, one after the other;
* `sent_in_batches` — the result.
-/

namespace Harvesting

section

variable {ι : Type}

/-- The document that is handed over. -/
def Happening.document? : Happening ι → Option Document
  | .handed e => some e.document
  | _ => none

/-- The batch that is sent. -/
def Happening.flight? : Happening ι → Option Flight
  | .launched _ n batch _ => some ⟨n, batch⟩
  | _ => none

/-- The batch that the client has taken out of the buffer and not sent yet. -/
def Errand.batch : Errand ι → List Document
  | .sending batch _ _ => batch
  | _ => []

end

namespace Shared

variable {ι : Type}

/-- The documents that were handed over, in order. -/
def handed (l : List (Happening ι)) : List Document := l.filterMap Happening.document?

/-- The batches that were sent, in order. -/
def sent (l : List (Happening ι)) : List Flight := l.filterMap Happening.flight?

/-- The documents of some batches, one batch after the other. -/
def contents (fs : List Flight) : List Document := fs.flatMap (·.documents)

section

variable {l m : List (Happening ι)} {h : Happening ι} {w w' : Shared ι}

theorem handed_append : handed (l ++ m) = handed l ++ handed m := List.filterMap_append

theorem sent_append : sent (l ++ m) = sent l ++ sent m := List.filterMap_append

@[simp] theorem handed_handed (e : Entry ι) : handed (l ++ [.handed e]) = handed l ++ [e.document] :=
  handed_append

@[simp] theorem sent_launched (i : ι) (n : Nat) (batch : List Document) (lot : List (Entry ι)) :
    sent (l ++ [.launched i n batch lot]) = sent l ++ [⟨n, batch⟩] := sent_append

theorem handed_other (hh : h.document? = none) : handed (l ++ [h]) = handed l := by
  simp [handed, List.filterMap_append, hh]

theorem sent_other (hh : h.flight? = none) : sent (l ++ [h]) = sent l := by
  simp [sent, List.filterMap_append, hh]

theorem mem_sent {f : Flight} : f ∈ sent l ↔ ∃ i lot, .launched i f.number f.documents lot ∈ l := by
  rw [sent, List.mem_filterMap]
  constructor
  · rintro ⟨h, hmem, hf⟩
    cases h with
    | launched i n batch lot =>
        cases hf
        exact ⟨i, lot, hmem⟩
    | _ => cases hf
  · rintro ⟨i, lot, hmem⟩
    exact ⟨_, hmem, rfl⟩

@[simp] theorem contents_append (fs gs : List Flight) : contents (fs ++ gs) = contents fs ++ contents gs :=
  List.flatMap_append

@[simp] theorem contents_singleton (f : Flight) : contents [f] = f.documents := List.append_nil _

/-! ## The size of a batch -/

/-- What a batcher was made with stays the same. -/
theorem Moves.settings_eq {b b' : Batcher} (hmoves : Moves b h b') : b'.size = b.size ∧ b'.lanes = b.lanes := by
  cases hmoves with
  | told i k => cases k <;> exact ⟨rfl, rfl⟩
  | _ => exact ⟨rfl, rfl⟩

/--
The buffer is not full. A batch that a document made full is full, and one that a flush or a close has
taken is neither empty nor full.
-/
structure Sized (w : Shared ι) : Prop where
  buffer : w.batcher.buffer.length < w.batcher.size
  full : ∀ i batch lot, w.errand i = .sending batch lot none → batch.length = w.batcher.size
  rest : ∀ i batch lot k, w.errand i = .sending batch lot (some k) →
    0 < batch.length ∧ batch.length < w.batcher.size

theorem Sized.still (hw : w.Sized) (b : Batcher) (hb : b.buffer = w.batcher.buffer) (hsize : b.size = w.batcher.size) :
    ({ w with batcher := b } : Shared ι).Sized := by
  constructor <;> simp only [hb, hsize]
  · exact hw.buffer
  · exact hw.full
  · exact hw.rest

/-- The buffer is emptied. -/
theorem Sized.empty (hw : w.Sized) (n : Nat) :
    (⟨{ w.batcher with buffer := [] }, [], w.errand, n⟩ : Shared ι).Sized where
  buffer := Nat.zero_lt_of_lt hw.buffer
  full := hw.full
  rest := hw.rest

variable [DecidableEq ι]

/-- A client turns to something else; a batch of it is to be of the right size. -/
theorem Sized.turn (hw : w.Sized) {i : ι} {k : Errand ι}
    (hfull : ∀ batch lot, k = .sending batch lot none → batch.length = w.batcher.size)
    (hrest : ∀ batch lot c, k = .sending batch lot (some c) → 0 < batch.length ∧ batch.length < w.batcher.size) :
    (w.turn i k).Sized where
  buffer := hw.buffer
  full j batch lot hsending := by
    by_cases hj : j = i
    · subst hj
      exact hfull batch lot (errand_turn_self.symm.trans hsending)
    · exact hw.full j batch lot ((errand_turn_of_ne hj).symm.trans hsending)
  rest j batch lot c hsending := by
    by_cases hj : j = i
    · subst hj
      exact hrest batch lot c (errand_turn_self.symm.trans hsending)
    · exact hw.rest j batch lot c ((errand_turn_of_ne hj).symm.trans hsending)

/-- A client that is done with its batch. -/
theorem Sized.leave (hw : w.Sized) {i : ι} {k : Errand ι} (hk : ∀ batch lot c, k ≠ .sending batch lot c) :
    (w.turn i k).Sized :=
  hw.turn (fun _ _ h => absurd h (hk _ _ _)) fun _ _ _ h => absurd h (hk _ _ _)

theorem Step.sized (hstep : Step w h w') (hw : w.Sized) : w'.Sized := by
  cases hstep with
  | hold _ _ hadd =>
      refine ⟨?_, ?_, ?_⟩
      all_goals cases Batcher.add_eq_none hadd
      · exact Batcher.length_of_add_eq_none hadd
      · exact hw.full
      · exact hw.rest
  | @fill i d batch b _ _ hadd =>
      have hfull := Batcher.length_of_add_eq_some hadd hw.buffer
      obtain ⟨rfl, rfl⟩ := Batcher.add_eq_some hadd
      refine (hw.empty (w.count + 1)).turn ?_ nofun
      rintro _ _ ⟨⟩
      exact hfull
  | @rest i k batch b _ hrest =>
      have hne := Batcher.ne_nil_of_takeRest hrest
      obtain ⟨rfl, rfl⟩ := Batcher.takeRest_eq_some hrest
      refine (hw.empty w.count).turn nofun ?_
      rintro _ _ _ ⟨⟩
      exact ⟨List.length_pos_iff.2 hne, hw.buffer⟩
  | nothing _ hrest =>
      obtain ⟨-, rfl⟩ := Batcher.takeRest_eq_none hrest
      exact hw.leave nofun
  | @launch i batch lot closing _ _ =>
      apply (hw.still (w.batcher.launch batch) rfl rfl).leave
      cases closing <;> nofun
  | refuse _ _ => exact hw
  | bar _ _ => exact hw.leave nofun
  | barClosing _ _ => exact hw.leave nofun
  | land v _ => exact hw.still _ rfl rfl
  | look _ => exact hw.still _ rfl rfl
  | through _ _ => exact (hw.still w.batcher.join rfl rfl).leave nofun
  | @tell i k r b _ hfault =>
      obtain ⟨-, rfl⟩ := Prod.mk.inj hfault
      refine (hw.still _ ?_ ?_).leave nofun
      all_goals cases k <;> rfl

theorem Run.sized (hrun : Run w l w') (hw : w.Sized) : w'.Sized ∧ w'.batcher.size = w.batcher.size := by
  induction hrun with
  | nil => exact ⟨hw, rfl⟩
  | snoc _ hstep ih => exact ⟨hstep.sized ih.1, hstep.moves.settings_eq.1.trans ih.2⟩

/-- A batch that is sent was taken before. -/
theorem Step.sending_of_launched {i : ι} {n : Nat} {batch : List Document} {lot : List (Entry ι)}
    (hstep : Step w (.launched i n batch lot) w') : ∃ closing, w.errand i = .sending batch lot closing := by
  cases hstep with
  | launch hsending _ => exact ⟨_, hsending⟩

end

/-! ## What is sent meanwhile -/

section

variable {l : List (Happening Unit)} {h : Happening Unit} {w w' : Shared Unit}

/-- A client that neither flushes nor closes goes on doing neither, until it calls for it. -/
theorem Step.closing?_eq_none (hstep : Step w h w') (hcalled : ∀ k, h ≠ .called () k)
    (hw : (w.errand ()).closing? = none) : (w'.errand ()).closing? = none := by
  cases hstep with
  | hold _ _ _ | refuse _ _ | land _ _ | look _ => exact hw
  | rest _ _ | nothing _ _ => exact absurd rfl (hcalled _)
  | launch hsending _ =>
      rw [hsending] at hw
      change _ = none at hw
      subst hw
      exact congrArg Errand.closing? errand_turn_self
  | through hwaits _ =>
      rw [hwaits] at hw
      cases hw
  | fill _ _ _ | bar _ _ | barClosing _ _ | tell _ _ => exact congrArg Errand.closing? errand_turn_self

/-- A client has a full batch to send only if a document made it full. -/
theorem Step.not_filling (hstep : Step w h w') (hhanded : ∀ e, h ≠ .handed e)
    (hw : ∀ batch lot, w.errand () ≠ .sending batch lot none) (batch : List Document) (lot : List (Entry Unit)) :
    w'.errand () ≠ .sending batch lot none := by
  cases hstep with
  | hold _ _ _ | fill _ _ _ => exact absurd rfl (hhanded _)
  | refuse _ _ | land _ _ | look _ => exact hw batch lot
  | @launch i _ _ closing _ _ =>
      rw [errand_turn_self]
      cases closing <;> nofun
  | rest _ _ | nothing _ _ | bar _ _ | barClosing _ _ | through _ _ | tell _ _ =>
      rw [errand_turn_self]
      nofun

/-- Every batch that is sent in a run was taken by a client of which `P` holds, if `P` lasts. -/
theorem Run.sending_of_sent {P : Errand Unit → Prop} {A : Happening Unit → Prop} (hrun : Run w l w')
    (hw : w.Sized) (hP : P (w.errand ())) (hl : ∀ h ∈ l, A h)
    (hkeep : ∀ {v h v'}, Step v h v' → A h → P (v.errand ()) → P (v'.errand ())) :
    P (w'.errand ()) ∧ ∀ f ∈ sent l, ∃ (v : Shared Unit) (lot : List (Entry Unit)) (closing : Option Closing), v.Sized ∧ v.batcher.size = w.batcher.size ∧
      v.errand () = .sending f.documents lot closing ∧ P (.sending f.documents lot closing) := by
  induction hrun with
  | nil => exact ⟨hP, nofun⟩
  | @snoc v v' l h hrun hstep ih =>
      obtain ⟨hv, hsent⟩ := ih fun h hmem => hl h (List.mem_append_left _ hmem)
      refine ⟨hkeep hstep (hl h (List.mem_append_right _ (List.mem_singleton_self h))) hv, ?_⟩
      intro f hf
      rw [sent_append, List.mem_append] at hf
      rcases hf with hf | hf
      · exact hsent f hf
      · -- this batch is the last one that was sent
        obtain ⟨⟨⟩, lot, hmem⟩ := mem_sent.1 hf
        cases List.mem_singleton.1 hmem
        obtain ⟨closing, hsending⟩ := hstep.sending_of_launched
        obtain ⟨hsized, hsize⟩ := hrun.sized hw
        exact ⟨v, lot, closing, hsized, hsize, hsending, hsending ▸ hv⟩

/-- Without a flush or a close, only full batches are sent. -/
theorem Run.full (hrun : Run w l w') (hw : w.Sized) (hfree : w.errand () = .free)
    (hl : ∀ h ∈ l, ∀ k, h ≠ .called () k) {f : Flight} (hf : f ∈ sent l) : f.documents.length = w.batcher.size := by
  obtain ⟨-, hsent⟩ := hrun.sending_of_sent (P := fun k => k.closing? = none) hw (congrArg Errand.closing? hfree) hl
    fun hstep hh hv => hstep.closing?_eq_none hh hv
  obtain ⟨v, lot, closing, hv, hsize, hsending, rfl⟩ := hsent f hf
  rw [← hsize]
  exact hv.full _ _ _ hsending

/-- Without a document, no batch is sent that is full or empty. -/
theorem Run.rest (hrun : Run w l w') (hw : w.Sized) (hfree : w.errand () = .free) (hl : ∀ h ∈ l, ∀ e, h ≠ .handed e)
    {f : Flight} (hf : f ∈ sent l) : 0 < f.documents.length ∧ f.documents.length < w.batcher.size := by
  obtain ⟨-, hsent⟩ := hrun.sending_of_sent (P := fun k => ∀ batch lot, k ≠ .sending batch lot none) hw
    (by rw [hfree]; nofun) hl fun hstep hh hv => hstep.not_filling hh hv
  obtain ⟨v, lot, closing, hv, hsize, hsending, hclosing⟩ := hsent f hf
  rw [← hsize]
  cases closing with
  | none => exact absurd rfl (hclosing _ lot)
  | some k => exact hv.rest _ _ _ _ hsending

/-! ## One client -/

/--
The batches that were sent, then the one that the client is to send, then the buffer: these are the
documents that were handed over, in their order.
-/
def Complete (l : List (Happening Unit)) (w : Shared Unit) : Prop :=
  contents (sent l) ++ ((w.errand ()).batch ++ w.batcher.buffer) = handed l

theorem Complete.other (hl : Complete l w) (hdocument : h.document? = none) (hflight : h.flight? = none)
    (hw : (w'.errand ()).batch ++ w'.batcher.buffer = (w.errand ()).batch ++ w.batcher.buffer) :
    Complete (l ++ [h]) w' := by
  rw [Complete, handed_other hdocument, sent_other hflight, hw]
  exact hl

theorem Complete.hand (hl : Complete l w) {e : Entry Unit} (hw : (w'.errand ()).batch ++ w'.batcher.buffer =
    (w.errand ()).batch ++ w.batcher.buffer ++ [e.document]) : Complete (l ++ [.handed e]) w' := by
  rw [Complete, handed_handed, sent_other rfl, hw, ← hl]
  simp only [List.append_assoc]

/-- As long as the batcher is open, no document is lost, doubled or moved. -/
theorem Step.complete (hstep : Step w h w') (hopen : w'.batcher.closed = false) (hl : Complete l w) :
    Complete (l ++ [h]) w' := by
  cases hstep with
  | hold hfree _ hadd =>
      cases Batcher.add_eq_none hadd
      apply hl.hand
      simp [entry]
  | fill hfree _ hadd =>
      obtain ⟨rfl, rfl⟩ := Batcher.add_eq_some hadd
      apply hl.hand
      simp [hfree, Errand.batch, entry]
  | rest hfree hrest =>
      obtain ⟨rfl, rfl⟩ := Batcher.takeRest_eq_some hrest
      apply hl.other rfl rfl
      simp [hfree, Errand.batch]
  | nothing hfree hrest =>
      obtain ⟨-, rfl⟩ := Batcher.takeRest_eq_none hrest
      apply hl.other rfl rfl
      simp [hfree, Errand.batch]
  | @launch i batch lot closing hsending _ =>
      -- the batch of the client is now the last one that was sent
      have hdone : (closing.elim Errand.free (@Errand.awaiting Unit)).batch = [] := by cases closing <;> rfl
      rw [Complete, handed_other rfl, ← hl, sent_launched, contents_append, errand_turn_self, hdone, hsending]
      simp [Errand.batch]
  | refuse _ hclosed | bar _ hclosed | barClosing _ hclosed => cases hopen.symm.trans hclosed
  | land _ _ | look _ => exact hl.other rfl rfl rfl
  | through hwaits _ =>
      apply hl.other rfl rfl
      simp [hwaits, Errand.batch]
  | @tell i k r b hsettling hfault =>
      have hbuffer : (k.after b).buffer = w.batcher.buffer := by
        rw [← (Prod.mk.inj hfault).2]
        cases k <;> rfl
      apply hl.other rfl rfl
      simp [hsettling, Errand.batch, hbuffer]

theorem Run.complete {b : Batcher} (hb : b.Settled) (hrun : Run (start b) l w) (hopen : w.batcher.closed = false) :
    Complete l w := by
  induction hrun with
  | nil =>
      show [] ++ ([] ++ b.buffer) = []
      simp [hb.buffer]
  | snoc _ hstep ih => exact hstep.complete hopen (ih (hstep.isOpen hopen))

end

end Shared

/-! ## Calls -/

/-- What a client asks of a sink that stays open. -/
inductive SinkCall where
  | index (d : Document)
  | flush

/-- The documents of some calls, in order. -/
def SinkCall.documents (cs : List SinkCall) : List Document :=
  cs.filterMap fun
    | .index d => some d
    | .flush => none

namespace Shared

/-- The client makes a call, with what happens meanwhile and what it is told. -/
def Makes (w : Shared Unit) : SinkCall → List (Happening Unit) → Except SinkFault Unit → Shared Unit → Prop
  | .index d => w.Indexes d
  | .flush => w.Closes .flush

/-- The client makes some calls, one after the other. -/
inductive Calls (w : Shared Unit) : List SinkCall → List (Happening Unit) → Shared Unit → Prop where
  | nil : Calls w [] [] w
  | snoc {cs : List SinkCall} {c : SinkCall} {l m : List (Happening Unit)} {r : Except SinkFault Unit}
      {w' w'' : Shared Unit} : Calls w cs l w' → w'.Makes c m r w'' → Calls w (cs ++ [c]) (l ++ m) w''

variable {b : Batcher} {cs : List SinkCall} {c : SinkCall} {l m : List (Happening Unit)} {w w' : Shared Unit}
  {d : Document} {r : Except SinkFault Unit} {k : Closing}

theorem handed_of_inner (hm : ∀ h ∈ m, h.isInner = true) : handed m = [] := by
  rw [handed, List.filterMap_eq_nil_iff]
  intro h hmem
  have hinner := hm h hmem
  cases h with
  | handed e => cases hinner
  | _ => rfl

theorem Indexes.handed_eq (hcall : w.Indexes d m r w') (hopen : w.batcher.closed = false) : handed m = [d] := by
  have hok := hcall.eq_ok hopen
  cases hcall with
  | refused _ _ _ => cases hok
  | taken _ hbefore hafter hdocument _ =>
      rw [handed_append, handed_of_inner hbefore, List.nil_append, ← hdocument]
      exact congrArg (_ :: ·) (handed_of_inner hafter)

theorem Indexes.not_called (hcall : w.Indexes d m r w') (hopen : w.batcher.closed = false) :
    ∀ h ∈ m, ∀ k, h ≠ .called () k := by
  have hok := hcall.eq_ok hopen
  cases hcall with
  | refused _ _ _ => cases hok
  | taken _ hbefore hafter _ _ =>
      rintro h hmem k rfl
      simp only [List.mem_append, List.mem_cons] at hmem
      rcases hmem with hmem | hmem | hmem
      · cases hbefore _ hmem
      · cases hmem
      · cases hafter _ hmem

theorem Closes.run (hcall : w.Closes k m r w') : Run w m w' ∧ (∀ h ∈ m, ∀ e, h ≠ .handed e) ∧ w'.errand () = .free := by
  cases hcall with
  | told hrun hbefore hafter =>
      refine ⟨hrun, ?_, ?_⟩
      · rintro h hmem e rfl
        simp only [List.mem_append, List.mem_cons, List.not_mem_nil, or_false] at hmem
        rcases hmem with hmem | hmem | hmem | hmem
        · cases hbefore _ hmem
        · cases hmem
        · cases hafter _ hmem
        · cases hmem
      · rw [← List.cons_append, ← List.append_assoc] at hrun
        obtain ⟨v, -, htell⟩ := hrun.last
        cases htell with
        | barClosing _ _ | tell _ _ => exact errand_turn_self

theorem Closes.handed_eq (hcall : w.Closes k m r w') : handed m = [] := by
  rw [handed, List.filterMap_eq_nil_iff]
  intro h hmem
  have hhanded := hcall.run.2.1 h hmem
  cases h with
  | handed e => exact absurd rfl (hhanded e)
  | _ => rfl

/-- Where a client is after its calls: between two calls, and its documents were handed over. -/
structure Called (b : Batcher) (cs : List SinkCall) (l : List (Happening Unit)) (w : Shared Unit) : Prop where
  run : Run (start b) l w
  free : w.errand () = .free
  isOpen : w.batcher.closed = false
  handed : handed l = SinkCall.documents cs

theorem Called.snoc (h : Called b cs l w) (hcall : w.Makes c m r w') : Called b (cs ++ [c]) (l ++ m) w' := by
  cases c with
  | index d =>
      have hcall : w.Indexes d m r w' := hcall
      obtain ⟨hrun, htold, hfree⟩ := hcall.run
      refine ⟨h.run.append hrun, hfree, (hrun.closed_eq_of htold).trans h.isOpen, ?_⟩
      rw [handed_append, hcall.handed_eq h.isOpen, h.handed]
      simp [SinkCall.documents]
  | flush =>
      have hcall : w.Closes .flush m r w' := hcall
      obtain ⟨hrun, -, hfree⟩ := hcall.run
      refine ⟨h.run.append hrun, hfree, hcall.isOpen h.isOpen, ?_⟩
      rw [handed_append, hcall.handed_eq, h.handed]
      simp [SinkCall.documents]

theorem Calls.called (hopen : b.closed = false) (hcalls : (start b).Calls cs l w) : Called b cs l w := by
  induction hcalls with
  | nil => exact ⟨.nil _, rfl, hopen, rfl⟩
  | snoc _ hcall ih => exact ih.snoc hcall

theorem sized_start (hb : b.Settled) (hsize : 0 < b.size) : (start b : Shared Unit).Sized where
  buffer := by
    show b.buffer.length < b.size
    rwa [hb.buffer]
  full _ _ _ hsending := by cases hsending
  rest _ _ _ _ hsending := by cases hsending

end Shared

/-! ## Deliveries -/

namespace Delivery

variable {σ : Type} (answer : σ → Call → Reply × σ)

/-- A call of a client to a delivery. -/
def make (d : Delivery) (s : σ) : SinkCall → Result σ
  | .index doc => d.index answer s doc
  | .flush => d.flush answer s

/-- The delivery after some calls, one after the other, and the server after them. -/
def afterCalls (cs : List SinkCall) (d : Delivery) (s : σ) : Delivery × σ :=
  cs.foldl (fun (d, s) c => (d.make answer s c).2) (d, s)

theorem Follows.make {w : Shared Unit} {d : Delivery} (hw : Follows w d) (s : σ) (c : SinkCall) :
    ∃ l w', w.Makes c l (d.make answer s c).1 w' ∧ Follows w' (d.make answer s c).2.1 := by
  cases c with
  | index doc => exact hw.index rfl
  | flush => exact hw.flush rfl

/-- The calls that are made to a delivery are calls of a client. -/
theorem exists_calls {b : Batcher} {w₀ : Shared Unit} (hw₀ : Follows w₀ (start b)) (cs : List SinkCall) (s : σ) :
    ∃ l w, w₀.Calls cs l w ∧ Follows w (afterCalls answer cs (start b) s).1 := by
  induction cs using List.reverseRecOn with
  | nil => exact ⟨[], w₀, .nil, hw₀⟩
  | append_singleton cs c ih =>
      obtain ⟨l, w, hcalls, hw⟩ := ih
      obtain ⟨m, w', hcall, hw'⟩ := hw.make answer (afterCalls answer cs (start b) s).2 c
      rw [afterCalls, List.foldl_concat]
      exact ⟨_, w', hcalls.snoc hcall, hw'⟩

end Delivery

/-! ## The result -/

namespace Shared

/--
A client indexes documents and flushes, in any order, and the answers to the batches may be any and come at
any time. After each call the buffer is not full, and the batches that were sent, in the order in which they
were sent, and then the buffer are the documents that were indexed so far, in their order. A document is
taken, and a batch that is sent meanwhile is full; a batch that a flush sends is neither full nor empty, and
a flush sends nothing if the buffer is empty. A delivery makes such calls, whatever its server answers.
-/
theorem sent_in_batches {s : SinkSettings} {processors : Nat} {b : Batcher} (hb : Batcher.of s processors = .ok b)
    (cs : List SinkCall) :
    b.size = max 1 s.batchSize ∧
    (∀ l w, (start b).Calls cs l w →
      w.batcher.buffer.length < b.size ∧
      contents (sent l) ++ w.batcher.buffer = SinkCall.documents cs ∧
      (∀ d m r w', w.Indexes d m r w' → r = .ok () ∧ ∀ f ∈ sent m, f.documents.length = b.size) ∧
      ∀ m r w', w.Closes .flush m r w' →
        (∀ f ∈ sent m, 0 < f.documents.length ∧ f.documents.length < b.size) ∧
        (w.batcher.buffer = [] → sent m = [])) ∧
    ∀ (σ : Type) (answer : σ → Call → Reply × σ) (server : σ), ∃ l w, (start b).Calls cs l w ∧
      w.batcher = (Delivery.afterCalls answer cs (Delivery.start b) server).1.batcher := by
  obtain ⟨hsettled, hopen⟩ := Batcher.of_eq_ok hb
  obtain ⟨hsize, -, -⟩ := Batcher.settings_of hb
  refine ⟨hsize, ?_, ?_⟩
  · intro l w hcalls
    obtain ⟨hrun, hfree, hopen', hhanded⟩ := hcalls.called hopen
    obtain ⟨hsized, hsame⟩ := hrun.sized (sized_start hsettled (by omega))
    have hsame : w.batcher.size = b.size := hsame
    have hcomplete := hrun.complete hsettled hopen'
    rw [Complete, hfree, hhanded] at hcomplete
    refine ⟨hsame ▸ hsized.buffer, hcomplete, ?_, ?_⟩
    · intro d m r w' hcall
      refine ⟨hcall.eq_ok hopen', ?_⟩
      intro f hf
      rw [← hsame]
      exact hcall.run.1.full hsized hfree (hcall.not_called hopen') hf
    · intro m r w' hcall
      have hrest : ∀ f ∈ sent m, 0 < f.documents.length ∧ f.documents.length < b.size := fun f hf =>
        hsame ▸ hcall.run.1.rest hsized hfree hcall.run.2.1 hf
      refine ⟨hrest, ?_⟩
      intro hempty
      have hcontents : contents (sent m) = [] := by
        have hcalled' := hcalls.called hopen |>.snoc (c := .flush) hcall
        have hcomplete' := hcalled'.run.complete hsettled hcalled'.isOpen
        rw [Complete, hcalled'.free, hcalled'.handed, sent_append, contents_append] at hcomplete'
        simp only [Errand.batch, hempty, List.append_nil] at hcomplete
        simp only [hcomplete, SinkCall.documents, List.filterMap_append, List.append_assoc,
          List.append_right_inj] at hcomplete'
        exact (List.append_eq_nil_iff.1 hcomplete').1
      rw [List.eq_nil_iff_forall_not_mem]
      intro f hf
      have hnone : f.documents = [] := List.flatMap_eq_nil_iff.1 hcontents f hf
      have hsome := (hrest f hf).1
      rw [hnone] at hsome
      exact absurd hsome (Nat.lt_irrefl 0)
  · intro σ answer server
    obtain ⟨l, w, hcalls, hw⟩ := Delivery.exists_calls answer (Delivery.follows_start hb) cs server
    exact ⟨l, w, hcalls, hw.batcher⟩

/-- Three documents with batches of two, and a flush for the third. -/
theorem sent_in_batches_three :
    ∃ (b : Batcher) (l m : List (Happening Unit)) (r : Except SinkFault Unit) (w w' : Shared Unit),
      Batcher.of (inBatches 2) 1 = .ok b ∧
      (start b).Calls [.index sampleDocument, .index sampleDocument, .index sampleDocument] l w ∧
      w.Closes .flush m r w' ∧ w.batcher.buffer.length < 2 ∧
      contents (sent l) ++ w.batcher.buffer = [sampleDocument, sampleDocument, sampleDocument] ∧
      ∀ f ∈ sent m, f.documents.length = 1 := by
  obtain ⟨endpoint, hb⟩ := of_inBatches 2
  obtain ⟨-, hcalls, hmade⟩ :=
    sent_in_batches hb [.index sampleDocument, .index sampleDocument, .index sampleDocument]
  obtain ⟨l, w, hlw, -⟩ := hmade Unit (fun _ _ => (.dropped, ())) ()
  obtain ⟨hroom, hcontents, -, hflush⟩ := hcalls l w hlw
  have hcalled := hlw.called rfl
  obtain ⟨m, r, w', hclosed, -⟩ := exists_closes .flush (fun _ => .ok ()) hcalled.free hcalled.isOpen
  refine ⟨_, l, m, r, w, w', hb, hlw, hclosed, hroom, hcontents, ?_⟩
  intro f hf
  have hpositive : 0 < f.documents.length := ((hflush m r w' hclosed).1 f hf).1
  have hless : f.documents.length < 2 := ((hflush m r w' hclosed).1 f hf).2
  omega

end Shared

end Harvesting
