import Harvesting.Proofs.Output.Shared

/-!
# The numbers of batches

Batches are told apart by their numbers, and so are the answers to them.

* `Numbered` — every batch that was sent has a number of its own, and one answer or none;
* `Moves.numbered` — whatever happens next, this stays so.
-/

namespace Harvesting.Shared

variable {ι : Type} {b b' : Batcher} {h : Happening ι} {l : List (Happening ι)}

/-- Every batch has a number of its own, and one answer or none. -/
structure Numbered (l : List (Happening ι)) (b : Batcher) : Prop where
  below : ∀ i n batch lot, .launched i n batch lot ∈ l → n < b.sent
  own : ∀ i n batch lot j batch' lot', .launched i n batch lot ∈ l → .launched j n batch' lot' ∈ l →
    j = i ∧ batch' = batch ∧ lot' = lot
  due : ∀ i n batch lot, .launched i n batch lot ∈ l → (∃ f ∈ b.flying, f.number = n) ∨ ∃ v, .landed n v ∈ l
  flying : ∀ f ∈ b.flying, ∃ i batch lot, .launched i f.number batch lot ∈ l
  landed : ∀ n v, .landed n v ∈ l → (∃ i batch lot, .launched i n batch lot ∈ l) ∧ ∀ f ∈ b.flying, f.number ≠ n
  once : ∀ n v v', .landed n v ∈ l → .landed n v' ∈ l → v' = v

theorem numbered_nil (hb : b.flying = []) : Numbered ([] : List (Happening ι)) b where
  below _ _ _ _ := nofun
  own _ _ _ _ _ _ _ := nofun
  due _ _ _ _ := nofun
  flying f hf := by
    rw [hb] at hf
    cases hf
  landed _ _ := nofun
  once _ _ _ := nofun

/-- Nothing is sent, and no answer comes. -/
theorem Numbered.still (hl : Numbered l b) (hquiet : h.isWire = false) (hsent : b'.sent = b.sent)
    (hflying : b'.flying = b.flying) : Numbered (l ++ [h]) b' := by
  have hmem : ∀ h' : Happening ι, h'.isWire = true → (h' ∈ l ++ [h] ↔ h' ∈ l) := by
    intro h' hwire
    rw [List.mem_append, List.mem_singleton, or_iff_left]
    rintro rfl
    cases hquiet.symm.trans hwire
  have hlaunched (i : ι) (n : Nat) (batch : List Document) (lot : List (Entry ι)) :=
    hmem (.launched i n batch lot) rfl
  have hlanded (n : Nat) (v : Except SinkFault Unit) := hmem (.landed n v) rfl
  constructor <;> simp only [hlaunched, hlanded, hsent, hflying]
  · exact hl.below
  · exact hl.own
  · exact hl.due
  · exact hl.flying
  · exact hl.landed
  · exact hl.once

theorem Numbered.launch (hl : Numbered l b) (i : ι) (batch : List Document) (lot : List (Entry ι)) :
    Numbered (l ++ [.launched i b.sent batch lot]) (b.launch batch) where
  below j n batch' lot' hmem := by
    rcases mem_snoc hmem with hmem | hmem
    · exact Nat.lt_succ_of_lt (hl.below _ _ _ _ hmem)
    · cases hmem
      exact Nat.lt_succ_self _
  own j n batch₁ lot₁ k batch₂ lot₂ hmem hmem' := by
    rcases mem_snoc hmem with hmem | hmem <;> rcases mem_snoc hmem' with hmem' | hmem'
    · exact hl.own _ _ _ _ _ _ _ hmem hmem'
    · cases hmem'
      exact absurd (hl.below _ _ _ _ hmem) (Nat.lt_irrefl _)
    · cases hmem
      exact absurd (hl.below _ _ _ _ hmem') (Nat.lt_irrefl _)
    · cases hmem
      cases hmem'
      exact ⟨rfl, rfl, rfl⟩
  due j n batch' lot' hmem := by
    rcases mem_snoc hmem with hmem | hmem
    · rcases hl.due _ _ _ _ hmem with ⟨f, hf, hn⟩ | ⟨v, hlanded⟩
      · exact .inl ⟨f, List.mem_append_left _ hf, hn⟩
      · exact .inr ⟨v, List.mem_append_left _ hlanded⟩
    · cases hmem
      exact .inl ⟨⟨b.sent, batch⟩, List.mem_append_right _ (List.mem_singleton_self _), rfl⟩
  flying f hf := by
    rcases List.mem_append.1 hf with hf | hf
    · obtain ⟨j, batch', lot', hmem⟩ := hl.flying f hf
      exact ⟨j, batch', lot', List.mem_append_left _ hmem⟩
    · cases List.mem_singleton.1 hf
      exact ⟨i, batch, lot, List.mem_append_right _ (List.mem_singleton_self _)⟩
  landed n v hmem := by
    obtain ⟨⟨j, batch', lot', hlaunched⟩, hflying⟩ := hl.landed n v ((mem_snoc hmem).resolve_right nofun)
    refine ⟨⟨j, batch', lot', List.mem_append_left _ hlaunched⟩, ?_⟩
    intro f hf
    rcases List.mem_append.1 hf with hf | hf
    · exact hflying f hf
    · cases List.mem_singleton.1 hf
      exact (Nat.ne_of_lt (hl.below _ _ _ _ hlaunched)).symm
  once n v v' hmem hmem' :=
    hl.once n v v' ((mem_snoc hmem).resolve_right nofun) ((mem_snoc hmem').resolve_right nofun)

theorem Numbered.land (hl : Numbered l b) {f : Flight} (hf : f ∈ b.flying) (v : Except SinkFault Unit) :
    Numbered (l ++ [.landed f.number v]) (b.land f.number v) where
  below i n batch lot hmem := hl.below _ _ _ _ ((mem_snoc hmem).resolve_right nofun)
  own i n batch lot j batch' lot' hmem hmem' :=
    hl.own _ _ _ _ _ _ _ ((mem_snoc hmem).resolve_right nofun) ((mem_snoc hmem').resolve_right nofun)
  due i n batch lot hmem := by
    by_cases hn : n = f.number
    · subst hn
      exact .inr ⟨v, List.mem_append_right _ (List.mem_singleton_self _)⟩
    · rcases hl.due _ _ _ _ ((mem_snoc hmem).resolve_right nofun) with ⟨g, hg, rfl⟩ | ⟨v', hlanded⟩
      · exact .inl ⟨g, List.mem_filter.2 ⟨hg, by simpa using hn⟩, rfl⟩
      · exact .inr ⟨v', List.mem_append_left _ hlanded⟩
  flying g hg := by
    obtain ⟨i, batch, lot, hmem⟩ := hl.flying g (List.mem_filter.1 hg).1
    exact ⟨i, batch, lot, List.mem_append_left _ hmem⟩
  landed n v' hmem := by
    rcases mem_snoc hmem with hmem | hmem
    · obtain ⟨⟨i, batch, lot, hlaunched⟩, hflying⟩ := hl.landed n v' hmem
      refine ⟨⟨i, batch, lot, List.mem_append_left _ hlaunched⟩, ?_⟩
      intro g hg
      exact hflying g (List.mem_filter.1 hg).1
    · cases hmem
      obtain ⟨i, batch, lot, hlaunched⟩ := hl.flying f hf
      refine ⟨⟨i, batch, lot, List.mem_append_left _ hlaunched⟩, ?_⟩
      intro g hg
      simpa using (List.mem_filter.1 hg).2
  once n v₁ v₂ hmem hmem' := by
    -- no answer to this batch came before
    have hnew {v' : Except SinkFault Unit} (hmem : .landed f.number v' ∈ l) : False :=
      (hl.landed _ _ hmem).2 f hf rfl
    rcases mem_snoc hmem with hmem | hmem <;> rcases mem_snoc hmem' with hmem' | hmem'
    · exact hl.once n v₁ v₂ hmem hmem'
    · cases hmem'
      exact (hnew hmem).elim
    · cases hmem
      exact (hnew hmem').elim
    · cases hmem
      cases hmem'
      rfl

theorem Moves.numbered (hmoves : Moves b h b') (hl : Numbered l b) : Numbered (l ++ [h]) b' := by
  cases hmoves with
  | still _ hquiet => exact hl.still hquiet rfl rfl
  | joined hquiet => exact hl.still hquiet rfl rfl
  | launched i batch lot => exact hl.launch i batch lot
  | landed v hf => exact hl.land hf v
  | told i k => cases k <;> exact hl.still rfl rfl rfl

end Harvesting.Shared
