import Harvesting.Proofs.Output.Alone

/-!
# The calls of one client

A call is a run from one moment at which the client is free to another. Answers to batches come before and
within it.

* `Indexes`, `Closes` — the calls, with what happens meanwhile and what the client is told;
* `Indexes.eq_ok`, `Closes.told_of`, `Closes.at_rest` — what they tell;
* `exists_indexes`, `exists_closes` — a call can always come to its end, whatever the answers.
-/

namespace Harvesting

/-- It belongs to a call that goes on. -/
def Happening.isInner {ι : Type} : Happening ι → Bool
  | .launched .. | .landed .. | .looked _ | .through _ => true
  | _ => false

namespace Shared

variable {l m : List (Happening Unit)} {h : Happening Unit} {w w' : Shared Unit} {d : Document} {k : Closing}
  {r : Except SinkFault Unit}

theorem isTold_of_isInner (hinner : h.isInner = true) : h.isTold = false := by
  cases h with
  | told i k r => cases hinner
  | _ => rfl

/-- The client hands over a document, or it is refused. -/
inductive Indexes (w : Shared Unit) (d : Document) :
    List (Happening Unit) → Except SinkFault Unit → Shared Unit → Prop where
  | taken {l l' : List (Happening Unit)} {e : Entry Unit} {w' : Shared Unit} : Run w (l ++ .handed e :: l') w' →
      (∀ h ∈ l, h.isInner = true) → (∀ h ∈ l', h.isInner = true) → e.document = d → w'.errand () = .free →
        Indexes w d (l ++ .handed e :: l') (.ok ()) w'
  | refused {l : List (Happening Unit)} {w' : Shared Unit} : Run w (l ++ [.refused ()]) w' →
      (∀ h ∈ l, h.isTold = false) → w'.errand () = .free → Indexes w d (l ++ [.refused ()]) (.error .closed) w'

/-- The client flushes or closes the batcher and is told how it went. -/
inductive Closes (w : Shared Unit) (k : Closing) :
    List (Happening Unit) → Except SinkFault Unit → Shared Unit → Prop where
  | told {l m : List (Happening Unit)} {r : Except SinkFault Unit} {w' : Shared Unit} :
      Run w (l ++ .called () k :: (m ++ [.told () k r])) w' → (∀ h ∈ l, h.isInner = true) →
        (∀ h ∈ m, h.isInner = true) → Closes w k (l ++ .called () k :: (m ++ [.told () k r])) r w'

theorem Run.closed_eq_of (hrun : Run w l w') (htold : ∀ h ∈ l, h.isTold = false) :
    w'.batcher.closed = w.batcher.closed :=
  hrun.closed_eq fun _ _ hmem => nomatch htold _ hmem

/-! ## What the calls tell -/

theorem Indexes.run (hcall : w.Indexes d l r w') :
    Run w l w' ∧ (∀ h ∈ l, h.isTold = false) ∧ w'.errand () = .free := by
  cases hcall with
  | taken hrun hbefore hafter _ hfree =>
      refine ⟨hrun, ?_, hfree⟩
      intro h hmem
      rcases List.mem_append.1 hmem with hmem | hmem
      · exact isTold_of_isInner (hbefore h hmem)
      · rcases List.mem_cons.1 hmem with rfl | hmem
        · rfl
        · exact isTold_of_isInner (hafter h hmem)
  | refused hrun htold hfree =>
      refine ⟨hrun, ?_, hfree⟩
      intro h hmem
      rcases mem_snoc hmem with hmem | rfl
      · exact htold h hmem
      · rfl

/-- As long as the batcher is open, documents are taken. -/
theorem Indexes.eq_ok (hcall : w.Indexes d l r w') (hopen : w.batcher.closed = false) : r = .ok () := by
  obtain ⟨hrun, htold, -⟩ := hcall.run
  have hopen' := (hrun.closed_eq_of htold).trans hopen
  cases hcall with
  | taken _ _ _ _ _ => rfl
  | refused _ _ _ =>
      exact absurd (List.mem_append_right _ (List.mem_singleton_self _)) (hrun.not_refused hopen')

/-- A closing tells of all that happened before its end. -/
theorem Closes.told_of (hcall : w.Closes k m r w') (hl : Since l w) (hopen : w.batcher.closed = false) :
    ∃ m', m = m' ++ [.told () k r] ∧ Run w m w' ∧ (∀ h ∈ m', h.isTold = false ∧ ∀ e, h ≠ .handed e) ∧
      Told (l ++ m') r w' := by
  cases hcall with
  | @told l₁ l₂ r w' hrun hbefore hafter =>
      have hm : l₁ ++ .called () k :: (l₂ ++ [.told () k r]) = (l₁ ++ .called () k :: l₂) ++ [.told () k r] := by
        simp
      have hinner {h : Happening Unit} (h' : h.isInner = true) : h.isTold = false ∧ ∀ e, h ≠ .handed e := by
        refine ⟨isTold_of_isInner h', ?_⟩
        rintro e rfl
        cases h'
      have hbetween : ∀ h ∈ l₁ ++ .called () k :: l₂, h.isTold = false ∧ ∀ e, h ≠ .handed e := by
        intro h hmem
        rcases List.mem_append.1 hmem with hmem | hmem
        · exact hinner (hbefore h hmem)
        · rcases List.mem_cons.1 hmem with rfl | hmem
          · exact ⟨rfl, nofun⟩
          · exact hinner (hafter h hmem)
      have htold : ∀ h ∈ l₁ ++ .called () k :: l₂, h.isTold = false := fun h hmem => (hbetween h hmem).1
      rw [hm] at hrun ⊢
      obtain ⟨v, hv, htell⟩ := hrun.last
      exact ⟨_, rfl, hrun, hbetween, (hl.run hv htold).told htell ((hv.closed_eq_of htold).trans hopen)⟩

/-- A flush leaves a batcher open. -/
theorem Closes.isOpen (hcall : w.Closes .flush m r w') (hopen : w.batcher.closed = false) :
    w'.batcher.closed = false := by
  cases hcall with
  | told hrun hbefore hafter =>
      rw [hrun.closed_eq, hopen]
      intro i r' hmem
      rcases List.mem_append.1 hmem with hmem | hmem
      · cases hbefore _ hmem
      · rcases List.mem_cons.1 hmem with hmem | hmem
        · cases hmem
        · rcases mem_snoc hmem with hmem | hmem
          · cases hafter _ hmem
          · cases hmem

/-- The client has nothing to send. -/
structure Idle (w : Shared Unit) : Prop where
  waiting : w.waiting = []
  errand : ∀ batch lot closing, w.errand () ≠ .sending batch lot closing

theorem AtRest.idle (hw : w.AtRest) : w.Idle where
  waiting := List.map_eq_nil_iff.1 (hw.faithful.buffer.trans hw.settled.buffer)
  errand _ _ _ hsending := by cases hw.free.symm.trans hsending

/-- A client that has nothing to send sends nothing, and has nothing to send until it is handed a document. -/
theorem Idle.step (hw : w.Idle) (hfaithful : w.Faithful) (hstep : Step w h w') (hhanded : ∀ e, h ≠ .handed e) :
    w'.Idle ∧ ∀ n batch lot, h ≠ .launched () n batch lot := by
  cases hstep with
  | hold _ _ _ | fill _ _ _ => cases hhanded _ rfl
  | rest _ hrest =>
      have hempty : w.batcher.buffer = [] := by rw [← hfaithful.buffer, hw.waiting, List.map_nil]
      rw [Batcher.takeRest, if_pos hempty] at hrest
      cases hrest
  | launch hsending _ | bar hsending _ | barClosing hsending _ => cases hw.errand _ _ _ hsending
  | nothing _ _ | through _ _ | tell _ _ =>
      refine ⟨⟨hw.waiting, ?_⟩, nofun⟩
      intro _ _ _ hsending
      cases errand_turn_self.symm.trans hsending
  | refuse _ _ | land _ _ | look _ => exact ⟨⟨hw.waiting, hw.errand⟩, nofun⟩

theorem Idle.run (hw : w.Idle) (hfaithful : w.Faithful) (hrun : Run w l w') (hhanded : ∀ e, .handed e ∉ l) :
    w'.Idle ∧ ∀ n batch lot, .launched () n batch lot ∉ l := by
  induction hrun with
  | nil => exact ⟨hw, nofun⟩
  | snoc hrun hstep ih =>
      obtain ⟨hv, hl⟩ := ih fun e hmem => hhanded e (List.mem_append_left _ hmem)
      have hlast := hv.step (hrun.faithful hfaithful) hstep (by
        rintro e rfl
        exact hhanded e (List.mem_append_right _ (List.mem_singleton_self _)))
      refine ⟨hlast.1, ?_⟩
      intro n batch lot hmem
      rcases mem_snoc hmem with hmem | hmem
      · exact hl n batch lot hmem
      · exact hlast.2 n batch lot hmem.symm

/-- A closing of a batcher with nothing to send sends nothing and tells no fault. -/
theorem Closes.at_rest (hcall : w.Closes k l r w') (hw : w.AtRest) (hopen : w.batcher.closed = false) :
    r = .ok () ∧ ∀ n batch lot, .launched () n batch lot ∉ l := by
  obtain ⟨m, rfl, hrun, hhanded, htold⟩ := hcall.told_of hw.since hopen
  have hsent : ∀ n batch lot, .launched () n batch lot ∉ m ++ [.told () k r] := by
    refine (hw.idle.run hw.faithful hrun ?_).2
    intro e hmem
    rcases mem_snoc hmem with hmem | hmem
    · exact (hhanded _ hmem).2 e rfl
    · cases hmem
  have hfault : faultIn ([] ++ m) = none := by
    by_contra hfault
    -- only a batch that was sent can be answered with a fault
    obtain ⟨n, f, hlanded⟩ := faultIn_ne_none.1 hfault
    obtain ⟨batch, lot, hlaunched⟩ := htold.sent n _ hlanded
    exact hsent n batch lot (List.mem_append_left _ hlaunched)
  refine ⟨?_, hsent⟩
  have hanswer := htold.answer.trans hfault
  cases r with
  | ok _ => rfl
  | error f => cases hanswer

/-! ## Calls come to their end -/

/-- All answers come. -/
theorem exists_landed (w : Shared Unit) (reply : Nat → Except SinkFault Unit) :
    ∃ l w', Run w l w' ∧ (∀ h ∈ l, ∃ n, h = .landed n (reply n)) ∧ w'.batcher.flying = [] ∧
      w'.errand = w.errand := by
  generalize hn : w.batcher.flying.length = n
  induction n using Nat.strongRecOn generalizing w with
  | ind n ih =>
      cases hflying : w.batcher.flying with
      | nil => exact ⟨[], w, .nil w, nofun, hflying, rfl⟩
      | cons f fs =>
          have hf : f ∈ w.batcher.flying := hflying ▸ List.mem_cons_self
          have hstep := Step.land (reply f.number) hf
          have hless : (w.batcher.flying.filter (·.number ≠ f.number)).length < n := by
            rw [← hn]
            exact List.length_filter_lt_length_iff_exists.2 ⟨f, hf, by simp⟩
          obtain ⟨l, w', hrun, hl, hw', herrand⟩ :=
            ih _ hless { w with batcher := w.batcher.land f.number (reply f.number) } rfl
          refine ⟨_, w', .cons hstep hrun, ?_, hw', herrand⟩
          intro h hmem
          rcases List.mem_cons.1 hmem with rfl | hmem
          · exact ⟨f.number, rfl⟩
          · exact hl h hmem

/-- A closing sends what is in the buffer. -/
theorem exists_awaiting (k : Closing) (hfree : w.errand () = .free) (hopen : w.batcher.closed = false) :
    ∃ l v, Run w (.called () k :: l) v ∧ (∀ h ∈ l, ∃ n batch lot, h = .launched () n batch lot) ∧
      v.errand () = .awaiting k := by
  by_cases hbuffer : w.batcher.buffer = []
  · have hrest : w.batcher.takeRest = (none, { w.batcher with buffer := [] }) := by
      rw [Batcher.takeRest, if_pos hbuffer]
    exact ⟨[], _, .single (.nothing hfree hrest), nofun, errand_turn_self⟩
  · have hrest : w.batcher.takeRest = (some w.batcher.buffer, { w.batcher with buffer := [] }) := by
      rw [Batcher.takeRest, if_neg hbuffer]
    have hcalled := Run.single (.rest (k := k) hfree hrest)
    refine ⟨_, _, hcalled.snoc (.launch errand_turn_self hopen), ?_, errand_turn_self⟩
    intro h hmem
    exact ⟨_, _, _, List.mem_singleton.1 hmem⟩

/-- A flush or a close comes to its end, whatever the answers. -/
theorem exists_closes (k : Closing) (reply : Nat → Except SinkFault Unit) (hfree : w.errand () = .free)
    (hopen : w.batcher.closed = false) :
    ∃ l r w', w.Closes k l r w' ∧ ∀ n v, .landed n v ∈ l → v = reply n := by
  obtain ⟨l₁, v₁, hrun₁, hl₁, hawaiting⟩ := exists_awaiting k hfree hopen
  obtain ⟨l₂, v₂, hrun₂, hl₂, hflying, herrand⟩ := exists_landed v₁ reply
  have hthrough := hrun₂.snoc (.through (herrand ▸ hawaiting) hflying)
  have htold := hthrough.snoc (.tell errand_turn_self rfl)
  have hrun := hrun₁.append htold
  have hl : ∀ h ∈ l₁ ++ (l₂ ++ [.through ()]), h.isInner = true ∧ ∀ n v, h = .landed n v → v = reply n := by
    intro h hmem
    rcases List.mem_append.1 hmem with hmem | hmem
    · obtain ⟨n, batch, lot, rfl⟩ := hl₁ h hmem
      exact ⟨rfl, nofun⟩
    · rcases mem_snoc hmem with hmem | rfl
      · obtain ⟨n, rfl⟩ := hl₂ h hmem
        refine ⟨rfl, ?_⟩
        rintro n' v ⟨⟩
        rfl
      · exact ⟨rfl, nofun⟩
  rw [List.cons_append, ← List.append_assoc] at hrun
  refine ⟨_, _, _, .told (l := []) hrun nofun fun h hmem => (hl h hmem).1, ?_⟩
  intro n v hmem
  rcases List.mem_cons.1 hmem with hmem | hmem
  · cases hmem
  · rcases mem_snoc hmem with hmem | hmem
    · exact (hl _ hmem).2 n v rfl
    · cases hmem

/-- A document is taken by an open batcher. -/
theorem exists_indexes (d : Document) (hfree : w.errand () = .free) (hopen : w.batcher.closed = false) :
    ∃ l w', w.Indexes d l (.ok ()) w' := by
  rcases hadd : w.batcher.add d with ⟨batch?, b⟩
  cases batch? with
  | none =>
      have hrun := Run.single (.hold hfree hopen hadd)
      exact ⟨_, _, .taken (l := []) hrun nofun nofun rfl hfree⟩
  | some batch =>
      have hb : b.closed = false := by
        obtain ⟨-, rfl⟩ := Batcher.add_eq_some hadd
        exact hopen
      have hrun := (Run.single (.fill hfree hopen hadd)).snoc (.launch errand_turn_self hb)
      refine ⟨_, _, .taken (l := []) hrun nofun ?_ rfl errand_turn_self⟩
      intro h hmem
      cases List.mem_singleton.1 hmem
      rfl

end Shared

end Harvesting
