import Mathlib.Data.List.Nodup
import Harvesting.Output.Delivery
import Harvesting.Proofs.Output.Calls

/-!
# Deliveries are runs

A delivery decides when the answers to its batches come. Each of its calls is a call of a single client
whose answers come at these times.

* `Delivery.Paired` — every batch on its way has its answer among those that are to come;
* `Delivery.Follows` — a delivery between two calls, and a batcher with one client;
* `Follows.index`, `Follows.flush`, `Follows.close` — the calls.
-/

namespace Harvesting.Delivery

open Shared

variable {σ : Type} {answer : σ → Call → Reply × σ} {d d' : Delivery} {s s' : σ} {doc : Document}
  {batch : List Document} {r : Except SinkFault Unit} {w : Shared Unit}

/-- The answers that are to come are those of the batches on their way. -/
structure Paired (b : Batcher) (pending : List Pending) : Prop where
  answered : ∀ f ∈ b.flying, ∃ p ∈ pending, p.number = f.number
  asked : ∀ p ∈ pending, ∃ f ∈ b.flying, f.number = p.number
  nodup : (pending.map (·.number)).Nodup
  below : ∀ p ∈ pending, p.number < b.sent

variable {b : Batcher} {pending : List Pending} {p : Pending}

theorem Paired.land (h : Paired b pending) (p : Pending) :
    Paired (b.land p.number p.verdict) (pending.filter (·.number ≠ p.number)) where
  answered f hf := by
    obtain ⟨hf, hn⟩ := List.mem_filter.1 hf
    obtain ⟨q, hq, hqf⟩ := h.answered f hf
    exact ⟨q, List.mem_filter.2 ⟨hq, by simpa [hqf] using hn⟩, hqf⟩
  asked q hq := by
    obtain ⟨hq, hn⟩ := List.mem_filter.1 hq
    obtain ⟨f, hf, hfq⟩ := h.asked q hq
    exact ⟨f, List.mem_filter.2 ⟨hf, by simpa [hfq] using hn⟩, hfq⟩
  nodup := h.nodup.sublist (List.filter_sublist.map _)
  below q hq := h.below q (List.mem_filter.1 hq).1

theorem Paired.launch (h : Paired b pending) (batch : List Document) (late : Bool)
    (verdict : Except SinkFault Unit) : Paired (b.launch batch) (pending ++ [⟨b.sent, late, verdict⟩]) where
  answered f hf := by
    rcases List.mem_append.1 hf with hf | hf
    · obtain ⟨q, hq, hqf⟩ := h.answered f hf
      exact ⟨q, List.mem_append_left _ hq, hqf⟩
    · cases List.mem_singleton.1 hf
      exact ⟨_, List.mem_append_right _ (List.mem_singleton_self _), rfl⟩
  asked q hq := by
    rcases List.mem_append.1 hq with hq | hq
    · obtain ⟨f, hf, hfq⟩ := h.asked q hq
      exact ⟨f, List.mem_append_left _ hf, hfq⟩
    · cases List.mem_singleton.1 hq
      exact ⟨⟨b.sent, batch⟩, List.mem_append_right _ (List.mem_singleton_self _), rfl⟩
  nodup := by
    rw [List.map_append, List.map_singleton, List.nodup_append]
    refine ⟨h.nodup, List.nodup_singleton _, ?_⟩
    intro n hn m hm
    obtain ⟨q, hq, rfl⟩ := List.mem_map.1 hn
    rw [List.mem_singleton.1 hm]
    exact Nat.ne_of_lt (h.below q hq)
  below q hq := by
    rcases List.mem_append.1 hq with hq | hq
    · exact Nat.lt_succ_of_lt (h.below q hq)
    · cases List.mem_singleton.1 hq
      exact Nat.lt_succ_self _

theorem Paired.buffer (h : Paired b pending) (buffer : List Document) :
    Paired { b with buffer := buffer } pending := ⟨h.answered, h.asked, h.nodup, h.below⟩

theorem Paired.step (h : Paired w.batcher pending) (hp : p ∈ pending) :
    Shared.Step w (.landed p.number p.verdict) { w with batcher := w.batcher.land p.number p.verdict } := by
  obtain ⟨f, hf, hn⟩ := h.asked p hp
  rw [← hn]
  exact .land p.verdict hf

/-! ## Answers that come -/

theorem landFirst_eq (d : Delivery) : d.landFirst = d ∨ ∃ p ∈ d.pending,
    d.landFirst = ⟨d.batcher.land p.number p.verdict, d.pending.filter (·.number ≠ p.number)⟩ := by
  rw [landFirst]
  split
  · exact .inl rfl
  · next p hp =>
      refine .inr ⟨p, ?_, rfl⟩
      cases hprompt : d.pending.find? (¬ ·.late) with
      | some q =>
          rw [hprompt] at hp
          cases hp
          exact List.mem_of_find?_eq_some hprompt
      | none =>
          rw [hprompt] at hp
          exact List.mem_of_mem_head? hp

/-- All answers come, in any order. -/
theorem exists_landed_all (ps : List Pending) (w : Shared Unit) (h : Paired w.batcher pending)
    (hps : ps.Perm pending) :
    ∃ l, Run w l { w with batcher := ps.foldl (fun b p => b.land p.number p.verdict) w.batcher } ∧
      (∀ h ∈ l, h.isInner = true) ∧
      (ps.foldl (fun b p => b.land p.number p.verdict) w.batcher).flying = [] := by
  induction ps generalizing w pending with
  | nil =>
      refine ⟨[], .nil w, nofun, ?_⟩
      rw [List.eq_nil_iff_forall_not_mem]
      intro f hf
      obtain ⟨p, hp, -⟩ := h.answered f hf
      rw [← hps.nil_eq] at hp
      cases hp
  | cons p ps ih =>
      have hp : p ∈ pending := hps.subset List.mem_cons_self
      -- no other answer has the number of this one
      have hrest : ps.Perm (pending.filter (·.number ≠ p.number)) := by
        have hnodup := (hps.map (·.number)).nodup_iff.2 h.nodup
        rw [List.map_cons, List.nodup_cons] at hnodup
        have hkept : (p :: ps).filter (·.number ≠ p.number) = ps := by
          rw [List.filter_cons_of_neg (by simp), List.filter_eq_self]
          intro q hq
          have hne : q.number ≠ p.number := fun hn => hnodup.1 (hn ▸ List.mem_map_of_mem hq)
          simpa using hne
        rw [← hkept]
        exact hps.filter _
      obtain ⟨l, hrun, hl, hflying⟩ := ih { w with batcher := w.batcher.land p.number p.verdict } (h.land p) hrest
      refine ⟨_, .cons (h.step hp) hrun, ?_, hflying⟩
      intro h hmem
      rcases List.mem_cons.1 hmem with rfl | hmem
      · rfl
      · exact hl h hmem

/-! ## Calls -/

/-- A delivery between two calls, and a batcher with one client. -/
structure Follows (w : Shared Unit) (d : Delivery) : Prop where
  batcher : w.batcher = d.batcher
  paired : Paired d.batcher d.pending
  free : w.errand () = .free

theorem follows_start {s : SinkSettings} {processors : Nat} (hb : Batcher.of s processors = .ok b) :
    Follows (Shared.start b) (start b) := by
  have hflying := (Batcher.of_eq_ok hb).1.flying
  refine ⟨rfl, ⟨?_, nofun, List.nodup_nil, nofun⟩, rfl⟩
  intro f hf
  rw [show (start b).batcher.flying = [] from hflying] at hf
  cases hf

/-- A batch is sent at once, or once an answer made a lane free. -/
theorem dispatch_eq (hopen : d.batcher.closed = false) (h : dispatch answer d s batch = (r, d', s')) :
    r = .ok () ∧ ∃ d₁ late verdict, (d₁ = d ∨ d₁ = d.landFirst) ∧
      d' = ⟨d₁.batcher.launch batch, d₁.pending ++ [⟨d₁.batcher.sent, late, verdict⟩]⟩ := by
  rw [dispatch, if_neg (by simp [hopen])] at h
  generalize hd₁ : (if d.batcher.mayLaunch then d else d.landFirst) = d₁ at h
  have hfirst : d₁ = d ∨ d₁ = d.landFirst := by
    rw [← hd₁]
    split
    · exact .inl rfl
    · exact .inr rfl
  dsimp only at h
  split at h
  · cases h
    exact ⟨rfl, d₁, _, _, hfirst, rfl⟩
  · cases h
    exact ⟨rfl, d₁, _, _, hfirst, rfl⟩

/-- An answer comes first if it must. -/
theorem exists_room {d₁ : Delivery} (hw : w.batcher = d.batcher) (hpaired : Paired d.batcher d.pending)
    (hopen : d.batcher.closed = false) (hfirst : d₁ = d ∨ d₁ = d.landFirst) :
    ∃ l w', Run w l w' ∧ (∀ h ∈ l, h.isInner = true) ∧ w'.batcher = d₁.batcher ∧
      Paired d₁.batcher d₁.pending ∧ d₁.batcher.closed = false ∧ w'.errand = w.errand := by
  have hnone : ∃ l w', Run w l w' ∧ (∀ h ∈ l, h.isInner = true) ∧ w'.batcher = d.batcher ∧
      Paired d.batcher d.pending ∧ d.batcher.closed = false ∧ w'.errand = w.errand :=
    ⟨[], w, .nil w, nofun, hw, hpaired, hopen, rfl⟩
  rcases hfirst with rfl | rfl
  · exact hnone
  · rcases landFirst_eq d with hsame | ⟨p, hp, hlanded⟩
    · rw [hsame]
      exact hnone
    · rw [hlanded]
      rw [← hw] at hpaired ⊢
      refine ⟨_, _, .single (hpaired.step hp), ?_, rfl, hpaired.land p, hw ▸ hopen, rfl⟩
      intro h hmem
      rw [List.mem_singleton.1 hmem]
      rfl

/-- A client that has taken a batch sends it. -/
theorem exists_launched {lot : List (Entry Unit)} {closing : Option Closing} (hw : w.batcher = d.batcher)
    (hpaired : Paired d.batcher d.pending) (hopen : d.batcher.closed = false)
    (hsending : w.errand () = .sending batch lot closing) (h : dispatch answer d s batch = (r, d', s')) :
    r = .ok () ∧ ∃ l w', Run w l w' ∧ (∀ h ∈ l, h.isInner = true) ∧ w'.batcher = d'.batcher ∧
      Paired d'.batcher d'.pending ∧ w'.errand () = closing.elim .free .awaiting := by
  obtain ⟨rfl, d₁, late, verdict, hfirst, rfl⟩ := dispatch_eq hopen h
  obtain ⟨l, v, hrun, hl, hv, hpaired₁, hopen₁, herrand⟩ := exists_room hw hpaired hopen hfirst
  have hstep := Shared.Step.launch ((congrFun herrand ()).trans hsending) (hv ▸ hopen₁)
  refine ⟨rfl, _, _, hrun.snoc hstep, ?_, congrArg (Batcher.launch · batch) hv, hpaired₁.launch batch late verdict,
    errand_turn_self⟩
  intro h hmem
  rcases mem_snoc hmem with hmem | rfl
  · exact hl h hmem
  · rfl

/-- A document that is handed to a delivery is one that its client hands over. -/
theorem Follows.index (hw : Follows w d) (h : d.index answer s doc = (r, d', s')) :
    ∃ l w', w.Indexes doc l r w' ∧ Follows w' d' := by
  obtain ⟨b, pending⟩ := d
  obtain ⟨rfl, hpaired, hfree⟩ := hw
  rw [Delivery.index] at h
  split at h
  · next hclosed =>
      cases h
      exact ⟨_, w, .refused (l := []) (.single (.refuse hfree hclosed)) nofun hfree, rfl, hpaired, hfree⟩
  · next hclosed =>
      have hopen : w.batcher.closed = false := by simpa using hclosed
      split at h
      · next hadd =>
          cases h
          cases Batcher.add_eq_none hadd
          have hrun := Run.single (.hold hfree hopen hadd)
          exact ⟨_, _, .taken (l := []) hrun nofun nofun rfl hfree, rfl, hpaired.buffer _, hfree⟩
      · next hadd =>
          obtain ⟨-, rfl⟩ := Batcher.add_eq_some hadd
          have hfill := Shared.Step.fill hfree hopen hadd
          obtain ⟨rfl, l, w', hrun, hl, hw', hpaired', hfree'⟩ :=
            exists_launched (w := (⟨{ w.batcher with buffer := [] }, [], w.errand, w.count + 1⟩ : Shared Unit).turn
              () (.sending _ (w.waiting ++ [w.entry () doc]) none)) rfl (hpaired.buffer []) hopen errand_turn_self h
          exact ⟨_, w', .taken (l := []) (.cons hfill hrun) nofun hl rfl hfree', hw', hpaired', hfree'⟩

/-- All answers come, and the client is told. -/
theorem exists_told {k : Closing} (hw : w.batcher = d.batcher) (hpaired : Paired d.batcher d.pending)
    (hawaiting : w.errand () = .awaiting k) (hfault : d.landAll.batcher.takeFault = (r, b)) :
    ∃ l w', Run w (l ++ [.told () k r]) w' ∧ (∀ h ∈ l, h.isInner = true) ∧ w'.batcher = k.after b ∧
      Paired b [] ∧ w'.errand () = .free := by
  have hps : (d.pending.filter (¬ ·.late) ++ d.pending.filter (·.late)).Perm d.pending := by
    simpa using (List.perm_append_comm.trans (List.filter_append_perm (·.late) d.pending))
  rw [← hw] at hpaired
  obtain ⟨l, hrun, hl, hflying⟩ := exists_landed_all _ w hpaired hps
  have hthrough := hrun.snoc (.through hawaiting hflying)
  rw [landAll, ← hw] at hfault
  have htold := hthrough.snoc (.tell errand_turn_self hfault)
  refine ⟨_, _, htold, ?_, rfl, ?_, errand_turn_self⟩
  · intro h hmem
    rcases mem_snoc hmem with hmem | rfl
    · exact hl h hmem
    · rfl
  · have hb : b.flying = [] := by
      rw [← (Prod.mk.inj hfault).2]
      exact hflying
    refine ⟨?_, nofun, List.nodup_nil, nofun⟩
    intro f hf
    rw [hb] at hf
    cases hf

/-- A delivery that is flushed, and a client that flushes or closes. -/
theorem Follows.closes (hw : Follows w d) (k : Closing) (h : d.flush answer s = (r, d', s')) :
    ∃ l w', w.Closes k l r w' ∧ w'.batcher = k.after d'.batcher ∧ Paired d'.batcher d'.pending ∧
      w'.errand () = .free := by
  obtain ⟨b, pending⟩ := d
  obtain ⟨rfl, hpaired, hfree⟩ := hw
  rw [Delivery.flush] at h
  dsimp only at h
  split at h
  · next hrest =>
      obtain ⟨-, rfl⟩ := Batcher.takeRest_eq_none hrest
      rcases hfault : (landAll ⟨w.batcher, pending⟩).batcher.takeFault with ⟨r', b'⟩
      rw [hfault] at h
      cases h
      have hcalled := Shared.Step.nothing (k := k) hfree hrest
      obtain ⟨l, w', hrun, hl, hw', hpaired', hfree'⟩ :=
        exists_told (d := ⟨w.batcher, pending⟩) batcher_turn hpaired errand_turn_self hfault
      exact ⟨_, w', .told (l := []) (.cons hcalled hrun) nofun hl, hw', hpaired', hfree'⟩
  · next batch b hrest =>
      obtain ⟨-, rfl⟩ := Batcher.takeRest_eq_some hrest
      have hcalled := Shared.Step.rest (k := k) hfree hrest
      have hpaired₁ := hpaired.buffer []
      cases hclosed : w.batcher.closed with
      | true =>
          -- nothing is sent any more, and the batch is lost
          rw [dispatch, if_pos hclosed] at h
          cases h
          have hrun := (Run.single hcalled).snoc (.barClosing errand_turn_self hclosed)
          refine ⟨_, _, .told (l := []) (m := []) hrun nofun nofun, ?_, hpaired₁, errand_turn_self⟩
          cases k with
          | flush => rfl
          | close => exact (Batcher.shut_of_closed (b := { w.batcher with buffer := [] }) hclosed).symm
      | false =>
          rcases hsent : dispatch answer ⟨{ w.batcher with buffer := [] }, pending⟩ s batch with ⟨r₁, d₁, s₁⟩
          rw [hsent] at h
          obtain ⟨rfl, l₁, v, hrun₁, hl₁, hv, hpaired₂, hawaiting⟩ :=
            exists_launched (w := (⟨{ w.batcher with buffer := [] }, [], w.errand, w.count⟩ : Shared Unit).turn ()
              (.sending batch w.waiting (some k))) rfl hpaired₁ hclosed errand_turn_self hsent
          dsimp only at h
          rcases hfault : d₁.landAll.batcher.takeFault with ⟨r', b'⟩
          rw [hfault] at h
          cases h
          obtain ⟨l₂, w', hrun₂, hl₂, hw', hpaired', hfree'⟩ := exists_told hv hpaired₂ hawaiting hfault
          have hrun := hrun₁.append hrun₂
          rw [← List.append_assoc] at hrun
          refine ⟨_, w', .told (l := []) (.cons hcalled hrun) nofun ?_, hw', hpaired', hfree'⟩
          intro h hmem
          exact (List.mem_append.1 hmem).elim (hl₁ h) (hl₂ h)

theorem Follows.flush (hw : Follows w d) (h : d.flush answer s = (r, d', s')) :
    ∃ l w', w.Closes .flush l r w' ∧ Follows w' d' := by
  obtain ⟨l, w', hcall, hw', hpaired, hfree⟩ := hw.closes .flush h
  exact ⟨l, w', hcall, hw', hpaired, hfree⟩

theorem Follows.close (hw : Follows w d) (h : d.close answer s = (r, d', s')) :
    ∃ l w', w.Closes .close l r w' ∧ Follows w' d' := by
  rw [Delivery.close] at h
  rcases hflush : d.flush answer s with ⟨r₁, d₁, s₁⟩
  rw [hflush] at h
  cases h
  obtain ⟨l, w', hcall, hw', hpaired, hfree⟩ := hw.closes .close hflush
  exact ⟨l, w', hcall, hw', ⟨hpaired.answered, hpaired.asked, hpaired.nodup, hpaired.below⟩, hfree⟩

end Harvesting.Delivery
