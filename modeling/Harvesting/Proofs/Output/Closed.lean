import Harvesting.Proofs.Output.Delivery
import Harvesting.Proofs.Output.Upsert

/-!
# Sinks that were closed

A sink that writes in bulk is closed by every close, whatever the close tells. A shelf is closed by a close
that succeeds, and by no other one.

* `Delivery.Ask`, `Delivery.serve` — calls of a delivery, one after the other;
* `Delivery.Over`, `Delivery.Over.serve` — a delivery that was closed, and whatever it is called for then;
* `Shared.Step.barred`, `Shared.Run.barred` — the same for answers that come at any time;
* `Shelf.closed_serve` — which calls close a shelf;
* `refused_after_close` — the result.
-/

namespace Harvesting

/-! ## Deliveries -/

namespace Delivery

/-- What a delivery can be called for. -/
inductive Ask where
  | index (doc : Document)
  | flush
  | close

variable {σ : Type} {answer : σ → Call → Reply × σ} {d d' : Delivery} {s s' : σ} {batch : List Document} {a : Ask}
  {r : Except SinkFault Unit}

/-- The answer to a call, with the delivery and the server after it. -/
def ask (answer : σ → Call → Reply × σ) (d : Delivery) (s : σ) : Ask → Result σ
  | .index doc => d.index answer s doc
  | .flush => d.flush answer s
  | .close => d.close answer s

/-- Calls one after the other, each with its answer. -/
def serve (answer : σ → Call → Reply × σ) (d : Delivery) (s : σ) :
    List Ask → List (Ask × Except SinkFault Unit) × Delivery × σ
  | [] => ([], d, s)
  | a :: as =>
    match d.ask answer s a with
    | (r, d, s) => ((a, r) :: (d.serve answer s as).1, (d.serve answer s as).2)

/-- The delivery was closed and has nothing to send. -/
structure Over (d : Delivery) : Prop where
  closed : d.batcher.closed = true
  buffer : d.batcher.buffer = []

theorem landAll_keeps (d : Delivery) :
    d.landAll.batcher.closed = d.batcher.closed ∧ d.landAll.batcher.buffer = d.batcher.buffer := by
  have hland (ps : List Pending) (b : Batcher) :
      (ps.foldl (fun b p => b.land p.number p.verdict) b).closed = b.closed ∧
        (ps.foldl (fun b p => b.land p.number p.verdict) b).buffer = b.buffer := by
    induction ps generalizing b with
    | nil => exact ⟨rfl, rfl⟩
    | cons p ps ih => exact ih (b.land p.number p.verdict)
  exact hland _ _

theorem buffer_dispatch (h : dispatch answer d s batch = (r, d', s')) : d'.batcher.buffer = d.batcher.buffer := by
  cases hclosed : d.batcher.closed with
  | true =>
      rw [dispatch, if_pos hclosed] at h
      cases h
      rfl
  | false =>
      obtain ⟨-, d₁, late, verdict, rfl | rfl, rfl⟩ := dispatch_eq hclosed h
      · rfl
      · rcases landFirst_eq d with hsame | ⟨p, -, hlanded⟩
        · rw [hsame]
          rfl
        · rw [hlanded]
          rfl

/-- A flush leaves nothing in the buffer, even if it fails. -/
theorem buffer_flush (h : d.flush answer s = (r, d', s')) : d'.batcher.buffer = [] := by
  rw [Delivery.flush] at h
  dsimp only at h
  split at h
  · next hrest =>
      obtain ⟨hbuffer, rfl⟩ := Batcher.takeRest_eq_none hrest
      cases h
      exact (landAll_keeps d).2.trans hbuffer
  · next hrest =>
      obtain ⟨-, rfl⟩ := Batcher.takeRest_eq_some hrest
      split at h
      · next hsent =>
          cases h
          exact (landAll_keeps _).2.trans (buffer_dispatch hsent)
      · exact buffer_dispatch h

/-- Whatever a close tells, the delivery is closed and has nothing to send. -/
theorem over_close (h : d.close answer s = (r, d', s')) : d'.Over := by
  rw [Delivery.close] at h
  rcases hflush : d.flush answer s with ⟨r₁, d₁, s₁⟩
  rw [hflush] at h
  cases h
  have hbuffer := buffer_flush hflush
  exact ⟨rfl, hbuffer⟩

theorem Over.flush (hd : d.Over) (h : d.flush answer s = (r, d', s')) : d'.Over ∧ s' = s := by
  have hrest : d.batcher.takeRest = (none, { d.batcher with buffer := [] }) := by
    rw [Batcher.takeRest, if_pos hd.buffer]
  rw [Delivery.flush, hrest] at h
  cases h
  obtain ⟨hclosed, hbuffer⟩ := landAll_keeps { d with batcher := { d.batcher with buffer := [] } }
  exact ⟨⟨hclosed.trans hd.closed, hbuffer⟩, rfl⟩

theorem Over.ask (hd : d.Over) (h : d.ask answer s a = (r, d', s')) :
    d'.Over ∧ s' = s ∧ ∀ doc, a = .index doc → r = .error .closed := by
  cases a with
  | index doc =>
      rw [Delivery.ask, Delivery.index, if_pos hd.closed] at h
      cases h
      exact ⟨hd, rfl, fun _ _ => rfl⟩
  | flush =>
      obtain ⟨hd', hs⟩ := hd.flush h
      exact ⟨hd', hs, by simp⟩
  | close =>
      rw [Delivery.ask, Delivery.close] at h
      rcases hflush : d.flush answer s with ⟨r₁, d₁, s₁⟩
      rw [hflush] at h
      cases h
      obtain ⟨hd', hs⟩ := hd.flush hflush
      exact ⟨⟨rfl, hd'.buffer⟩, hs, by simp⟩

/-- Nothing is taken or sent any more. -/
theorem Over.serve (hd : d.Over) (as : List Ask) {h : List (Ask × Except SinkFault Unit)}
    (hserve : d.serve answer s as = (h, d', s')) :
    d'.Over ∧ s' = s ∧ ∀ doc r, (.index doc, r) ∈ h → r = .error .closed := by
  induction as generalizing d h with
  | nil =>
      cases hserve
      exact ⟨hd, rfl, by simp⟩
  | cons a as ih =>
      rcases hask : d.ask answer s a with ⟨r₁, d₁, s₁⟩
      obtain ⟨hd₁, rfl, hfirst⟩ := hd.ask hask
      rcases hrest : d₁.serve answer s₁ as with ⟨h₁, d₂, s₂⟩
      rw [Delivery.serve, hask] at hserve
      dsimp only at hserve
      rw [hrest] at hserve
      cases hserve
      obtain ⟨hd', hs, hlater⟩ := ih hd₁ hrest
      refine ⟨hd', hs, ?_⟩
      intro doc r hmem
      rcases List.mem_cons.1 hmem with heq | hmem
      · cases heq
        exact hfirst doc rfl
      · exact hlater doc r hmem

end Delivery

/-! ## Answers that come at any time -/

/-- A document is taken, or a batch is sent. -/
def Happening.writes {ι : Type} : Happening ι → Bool
  | .handed _ | .launched .. => true
  | _ => false

namespace Shared

variable {w w' : Shared Unit} {l : List (Happening Unit)} {h : Happening Unit} {d : Document}
  {r : Except SinkFault Unit}

theorem Step.closed_of_told (hstep : Step w (.told () .close r) w') : w'.batcher.closed = true := by
  cases hstep with
  | barClosing _ hclosed => exact hclosed
  | tell _ _ => rfl

/-- A batcher that is closed takes and sends nothing, and stays closed. -/
theorem Step.barred (hstep : Step w h w') (hclosed : w.batcher.closed = true) :
    w'.batcher.closed = true ∧ h.writes = false := by
  have hstays : w'.batcher.closed = true := by
    by_contra hopen
    have hopen := hstep.isOpen (by simpa using hopen)
    cases hclosed.symm.trans hopen
  refine ⟨hstays, ?_⟩
  cases hstep with
  | hold _ hopen _ | fill _ hopen _ | launch _ hopen => cases hclosed.symm.trans hopen
  | _ => rfl

theorem Run.barred (hrun : Run w l w') (hclosed : w.batcher.closed = true) :
    w'.batcher.closed = true ∧ ∀ h ∈ l, h.writes = false := by
  induction hrun with
  | nil => exact ⟨hclosed, List.forall_mem_nil _⟩
  | snoc _ hstep ih =>
      obtain ⟨hv, hl⟩ := ih
      obtain ⟨hw', hlast⟩ := hstep.barred hv
      refine ⟨hw', ?_⟩
      intro h hmem
      rcases mem_snoc hmem with hmem | rfl
      · exact hl h hmem
      · exact hlast

theorem Indexes.barred (hcall : w.Indexes d l r w') (hclosed : w.batcher.closed = true) : r = .error .closed := by
  cases hcall with
  | taken hrun _ _ _ _ =>
      have hhanded := (hrun.barred hclosed).2 _ (List.mem_append_right _ List.mem_cons_self)
      cases hhanded
  | refused _ _ _ => rfl

end Shared

/-! ## Shelves -/

namespace Shelf

variable {s s' : Shelf} {c : Call} {a : Except SinkFault Unit}

theorem closed_flush (s : Shelf) : s.flush.2.closed = s.closed := by
  by_cases hdue : s.failAt = some (s.attempts + 1)
  · rw [flush_fails hdue]
  · rw [flush_succeeds hdue]

/-- Only a close that succeeds closes. -/
theorem closed_call (h : s.call c = (a, s')) :
    s'.closed = true ↔ s.closed = true ∨ (⟨c, a⟩ : Deed) = ⟨.close, .ok ()⟩ := by
  cases c with
  | close =>
      rw [call, close_eq] at h
      cases h
      rw [closed_flush]
      rcases s.flush.1 with f | ⟨⟩ <;> simp [Except.isOk, Except.toBool]
  | index d =>
      rw [call, index] at h
      split at h <;> cases h <;> simp
  | flush =>
      have hs' : s' = s.flush.2 := (congrArg Prod.snd h).symm
      simp [hs', closed_flush]
  | failNextFlush | failFlushAfter n =>
      cases h
      simp [failNextFlush, failFlushAfter]

theorem closed_serve (cs : List Call) :
    (empty.serve cs).2.closed = true ↔ ⟨.close, .ok ()⟩ ∈ (empty.serve cs).1 := by
  induction cs using List.reverseRecOn with
  | nil => simp [serve, empty]
  | append_singleton cs c ih =>
      have hlast := closed_call (s := (empty.serve cs).2) (c := c) (Prod.eta _).symm
      rw [serve_concat, hlast, ih, List.mem_append, List.mem_singleton, eq_comm (a := Deed.mk c _)]

/-- What a shelf answers to a document tells whether it is closed. -/
theorem index_eq (s : Shelf) (d : Document) :
    s.index d = if s.closed then (.error .closed, s) else (.ok (), { s with pending := s.pending ++ [d] }) := rfl

end Shelf

/-! ## The result -/

/--
A sink that writes in bulk and that was called to close refuses a document from then on, keeps none and asks
the server for nothing, whatever the close answered; so it is also when answers come at any time. A shelf refuses
a document exactly if a close succeeded; if none did, it takes the document.
-/
theorem refused_after_close (doc : Document) :
    (∀ {σ : Type} (answer : σ → Call → Reply × σ) (d : Delivery) s r d₁ s₁ asks h d₂ s₂,
      d.close answer s = (r, d₁, s₁) → d₁.serve answer s₁ asks = (h, d₂, s₂) →
        (∀ r, (.index doc, r) ∈ h → r = .error .closed) ∧ d₂.batcher.buffer = [] ∧ s₂ = s₁) ∧
    (∀ b l r l' (w : Shared Unit), Shared.Run (.start b) (l ++ .told () .close r :: l') w →
      (∀ h ∈ l', h.writes = false) ∧ (∀ m r w', w.Indexes doc m r w' → r = .error .closed) ∧
        (w.errand () = .free → ∃ m w', w.Indexes doc m (.error .closed) w')) ∧
    ∀ cs h s, Shelf.empty.serve cs = (h, s) →
      (⟨.close, .ok ()⟩ ∈ h → s.index doc = (.error .closed, s)) ∧
        (⟨.close, .ok ()⟩ ∉ h → s.index doc = (.ok (), { s with pending := s.pending ++ [doc] })) := by
  refine ⟨?_, ?_, ?_⟩
  · intro σ answer d s r d₁ s₁ asks h d₂ s₂ hclose hserve
    obtain ⟨hd₂, hs, hrefused⟩ := (Delivery.over_close hclose).serve asks hserve
    exact ⟨hrefused doc, hd₂.buffer, hs⟩
  · intro b l r l' w hrun
    obtain ⟨v, -, hafter⟩ := hrun.split
    obtain ⟨v', htold, hrest⟩ := hafter.uncons
    obtain ⟨hclosed, hbarred⟩ := hrest.barred htold.closed_of_told
    refine ⟨hbarred, fun m r w' hcall => hcall.barred hclosed, ?_⟩
    intro hfree
    exact ⟨_, w, .refused (l := []) (.single (.refuse hfree hclosed)) (List.forall_mem_nil _) hfree⟩
  · intro cs h s hserve
    have hclosed := Shelf.closed_serve cs
    rw [hserve] at hclosed
    rw [Shelf.index_eq]
    exact ⟨fun hmem => if_pos (hclosed.2 hmem), fun hmem => if_neg (hmem ∘ hclosed.1)⟩

/-- A server that never answers and counts how often it was asked. -/
def Delivery.unanswered (asked : Nat) (_ : Call) : Reply × Nat := (.silent, asked + 1)

/-- A batch went unanswered, which is yet to be told. -/
def Delivery.overdue (b : Batcher) : Delivery := ⟨{ b with fault := some (.timeout b.timeout) }, []⟩

/-- A close that fails, and what the sinks are called for after it. -/
theorem refused_after_close_failed :
    (∃ b f d₁ s₁ h d₂ s₂, Batcher.of (Shared.inBatches 2) 1 = .ok b ∧
      (Delivery.overdue b).close Delivery.unanswered 1 = (.error f, d₁, s₁) ∧
        d₁.serve Delivery.unanswered s₁ [.flush, .index Shared.sampleDocument, .close] = (h, d₂, s₂) ∧
          (∀ r, (.index Shared.sampleDocument, r) ∈ h → r = .error .closed) ∧ d₂.batcher.buffer = [] ∧ s₂ = s₁) ∧
    (∃ b w, Batcher.of (Shared.inBatches 2) 1 = .ok b ∧
      Shared.Run (.start b) [.called () .close, .through (), .told () .close (.ok ()), .refused ()] w ∧
        ∃ m w', w.Indexes Shared.sampleDocument m (.error .closed) w') ∧
    let served := Shelf.empty.serve [.failNextFlush, .close, .close]
    served.1.map (·.answer.isOk) = [true, false, true] ∧
      served.2.index Shared.sampleDocument = (.error .closed, served.2) := by
  obtain ⟨hbulk, hshared, hshelf⟩ := refused_after_close Shared.sampleDocument
  obtain ⟨endpoint, hb⟩ := Shared.of_inBatches 2
  refine ⟨?_, ?_, rfl, (hshelf _ _ _ rfl).1 (.tail _ (.tail _ (.head _)))⟩
  · have hclose : (Delivery.overdue (Shared.sampleBatcher endpoint 2)).close Delivery.unanswered 1 =
      (.error (.timeout (Shared.inBatches 2).timeout), ⟨(Shared.sampleBatcher endpoint 2).shut, []⟩, 1) := rfl
    rcases hserve : Delivery.serve Delivery.unanswered ⟨(Shared.sampleBatcher endpoint 2).shut, []⟩ 1
      [.flush, .index Shared.sampleDocument, .close] with ⟨h, d₂, s₂⟩
    exact ⟨_, _, _, _, h, d₂, s₂, hb, hclose, hserve, hbulk _ _ _ _ _ _ _ _ _ _ hclose hserve⟩
  · have hcalled := Shared.Run.single (.nothing (w := .start (Shared.sampleBatcher endpoint 2)) (i := ())
      (k := .close) rfl rfl)
    have hthrough := hcalled.snoc (.through (i := ()) rfl rfl)
    have htold := hthrough.snoc (.tell (i := ()) rfl rfl)
    have hrefused := htold.snoc (.refuse (i := ()) rfl rfl)
    exact ⟨_, _, hb, hrefused, (hshared _ [.called () .close, .through ()] _ [.refused ()] _ hrefused).2.2 rfl⟩

/-- A shelf that was called to close takes a document, since the flush of that close failed. -/
theorem taken_after_close :
    ∃ f s s', Shelf.empty.failNextFlush.close = (.error f, s) ∧ s.index Shared.sampleDocument = (.ok (), s') ∧
      s'.pending = [Shared.sampleDocument] := ⟨_, _, _, rfl, rfl, rfl⟩

end Harvesting
