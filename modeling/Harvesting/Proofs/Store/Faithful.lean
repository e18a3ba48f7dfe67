import Harvesting.Proofs.Except
import Harvesting.Store.Memory

/-!
# Faithful stores

What a harvest may rely on: a store holds the document that was put last for a key and a slot, and a
store that refuses keeps what it holds.

* `FaithfulStore` — stores of which this is true, with the documents that they hold;
* `FaithfulStore.load_ok`, `FaithfulStore.save_ok` and their like — the same for checkpoints;
* `FaithfulStore.loadTally_ok`, `FaithfulStore.saveTally_ok` — the same for tallies;
* the instance of `MemoryStore`; `CarefulArchive` is the store on disk as another one.
-/

namespace Harvesting

/-- A store with the documents that it holds. -/
class FaithfulStore (σ : Type) extends Store σ where
  held : σ → String → Slot → Option Json
  held_get : ∀ (s : σ) key slot, held (get s key slot).2 = held s
  get_ok : ∀ (s : σ) key slot doc s', get s key slot = (.ok doc, s') → doc = held s key slot
  put_ok : ∀ (s : σ) key slot doc s', put s key slot doc = (.ok (), s') →
    ∀ key' slot', held s' key' slot' = if (key', slot') = (key, slot) then some doc else held s key' slot'
  put_error : ∀ (s : σ) key slot doc f s', put s key slot doc = (.error f, s') → held s' = held s

/-! ## Checkpoints and tallies -/

namespace FaithfulStore

variable {σ : Type} [FaithfulStore σ] {s s' : σ} {key : String}

/-- The checkpoint that reading the document gives, none if there is no document. -/
def Reads (doc : Option Json) (c : Option Checkpoint) : Prop :=
  match doc with
  | none => c = none
  | some doc => ∃ c', Checkpoint.ofDocument doc = .ok c' ∧ c = some c'

theorem Reads.unique {doc : Option Json} {c c' : Option Checkpoint} (h : Reads doc c) (h' : Reads doc c') :
    c = c' := by
  cases doc with
  | none => exact h.trans h'.symm
  | some doc =>
      obtain ⟨c₁, hread, rfl⟩ := h
      obtain ⟨c₂, hread', rfl⟩ := h'
      cases hread.symm.trans hread'
      rfl

theorem held_load {r : Except Store.Fault (Option Checkpoint)} (h : Store.load s key = (r, s')) :
    held s' = held s := by
  have hget := held_get s key .checkpoint
  rw [Store.load] at h
  -- in each case the store is the one that `get` leaves
  split at h <;> next heq =>
    cases h
    rw [heq] at hget
    exact hget

theorem load_ok {c : Option Checkpoint} (h : Store.load s key = (.ok c, s')) :
    Reads (held s key .checkpoint) c := by
  rw [Store.load] at h
  split at h
  · next doc _ heq =>
    rw [← get_ok _ _ _ _ _ heq]
    obtain ⟨c', hread, rfl⟩ := map_eq_ok.1 (Prod.mk.inj h).1
    exact ⟨c', mapError_eq_ok.1 hread, rfl⟩
  · next heq =>
    rw [← get_ok _ _ _ _ _ heq]
    cases h
    rfl
  · cases h

theorem save_ok {c : Checkpoint} (h : Store.save s key c = (.ok (), s')) :
    held s' key .checkpoint = some c.toDocument := by
  rw [put_ok s key .checkpoint c.toDocument s' h, if_pos rfl]

theorem save_error {c : Checkpoint} {f : Store.Fault} (h : Store.save s key c = (.error f, s')) :
    held s' = held s :=
  put_error s key .checkpoint c.toDocument f s' h

theorem held_loadTally {r : Except Store.Fault Tally} (h : Store.loadTally s key = (r, s')) :
    held s' = held s := by
  have hget := held_get s key .tally
  rw [Store.loadTally] at h
  split at h <;> next heq =>
    cases h
    rw [heq] at hget
    exact hget

/-- A tally leaves all checkpoints as they are. -/
theorem held_saveTally {t : Tally} {r : Except Store.Fault Unit} (h : Store.saveTally s key t = (r, s'))
    (key' : String) : held s' key' .checkpoint = held s key' .checkpoint := by
  rcases r with f | ⟨⟩
  · rw [put_error s key .tally t.toDocument f s' h]
  · rw [put_ok s key .tally t.toDocument s' h, if_neg (by simp)]

/-- A checkpoint leaves all tallies as they are. -/
theorem held_save {c : Checkpoint} {r : Except Store.Fault Unit} (h : Store.save s key c = (r, s'))
    (key' : String) : held s' key' .tally = held s key' .tally := by
  rcases r with f | ⟨⟩
  · rw [put_error s key .checkpoint c.toDocument f s' h]
  · rw [put_ok s key .checkpoint c.toDocument s' h, if_neg (by simp)]

/-- The tally is what reading the document gives, the empty one if there is no document. -/
inductive ReadsTally : Option Json → Tally → Prop where
  | none : ReadsTally none Tally.empty
  | some {doc : Json} {t : Tally} : Tally.ofDocument doc = .ok t → ReadsTally (some doc) t

theorem ReadsTally.unique {doc : Option Json} {t t' : Tally} (h : ReadsTally doc t) (h' : ReadsTally doc t') :
    t = t' := by
  cases h with
  | none =>
      cases h'
      rfl
  | some hread =>
      cases h' with
      | some hread' =>
          cases hread.symm.trans hread'
          rfl

theorem loadTally_ok {t : Tally} (h : Store.loadTally s key = (.ok t, s')) : ReadsTally (held s key .tally) t := by
  rw [Store.loadTally] at h
  split at h
  · next heq =>
    rw [← get_ok _ _ _ _ _ heq]
    exact .some (mapError_eq_ok.1 (Prod.mk.inj h).1)
  · next heq =>
    rw [← get_ok _ _ _ _ _ heq]
    cases h
    exact .none
  · cases h

theorem saveTally_ok {t : Tally} (h : Store.saveTally s key t = (.ok (), s')) (key' : String) :
    held s' key' .tally = if key' = key then some t.toDocument else held s key' .tally := by
  rw [put_ok s key .tally t.toDocument s' h]
  simp

theorem saveTally_error {t : Tally} {f : Store.Fault} (h : Store.saveTally s key t = (.error f, s')) :
    held s' = held s :=
  put_error s key .tally t.toDocument f s' h

end FaithfulStore

/-! ## The store in memory -/

namespace MemoryStore

/-- The documents that are kept are found as before. -/
theorem find?_others (s : MemoryStore) {key key' : String} {slot slot' : Slot}
    (h : (key', slot') ≠ (key, slot)) :
    (s.others key slot).find? (·.1 = (key', slot')) = s.documents.find? (·.1 = (key', slot')) := by
  rw [others, List.find?_filter]
  congr 1
  funext m
  by_cases hm : m.1 = (key', slot')
  · rw [hm, decide_eq_true h, decide_eq_true rfl]
    rfl
  · simp [hm]

theorem document?_put (s : MemoryStore) (key : String) (slot : Slot) (doc : Json)
    (history : List Checkpoint) (n : Nat) (key' : String) (slot' : Slot) :
    (⟨((key, slot), doc) :: s.others key slot, history, n⟩ : MemoryStore).document? key' slot' =
      if (key', slot') = (key, slot) then some doc else s.document? key' slot' := by
  have hcons : (⟨((key, slot), doc) :: s.others key slot, history, n⟩ : MemoryStore).document? key' slot' =
      (if (key, slot) = (key', slot') then some doc
        else ((s.others key slot).find? (·.1 = (key', slot'))).map (·.2)) := by
    rw [document?, List.find?_cons]
    by_cases h : (key, slot) = (key', slot')
    · rw [if_pos h, decide_eq_true h]
      rfl
    · rw [if_neg h, decide_eq_false h]
  rw [hcons]
  by_cases h : (key', slot') = (key, slot)
  · rw [if_pos h.symm, if_pos h]
  · rw [if_neg (fun h' => h h'.symm), if_neg h, find?_others s h]
    rfl

theorem document?_others (s : MemoryStore) (key : String) (slot : Slot) (history : List Checkpoint) (n : Nat)
    (key' : String) (slot' : Slot) :
    (⟨s.others key slot, history, n⟩ : MemoryStore).document? key' slot' =
      if (key', slot') = (key, slot) then none else s.document? key' slot' := by
  by_cases h : (key', slot') = (key, slot)
  · have hnone : (s.others key slot).find? (·.1 = (key', slot')) = none := by
      rw [List.find?_eq_none]
      intro m hm
      have hne : m.1 ≠ (key, slot) := of_decide_eq_true (List.mem_filter.1 hm).2
      rw [h]
      simpa using hne
    rw [if_pos h, document?, hnone]
    rfl
  · rw [if_neg h, document?, find?_others s h]
    rfl

theorem get_eq (s : MemoryStore) (key : String) (slot : Slot) :
    (∃ f n, s.get key slot = (.error f, { s with failingLoads := n })) ∨
      s.get key slot = (.ok (s.document? key slot), s) := by
  rw [get]
  split
  · exact .inl ⟨_, s.failingLoads, rfl⟩
  · split
    · exact .inl ⟨_, _, rfl⟩
    · exact .inr rfl

theorem put_eq (s : MemoryStore) (key : String) (slot : Slot) (doc : Json) :
    (∃ f, s.put key slot doc = (.error f, s)) ∨
      ∃ history, s.put key slot doc =
        (.ok (), ⟨((key, slot), doc) :: s.others key slot, history, s.failingLoads⟩) := by
  rw [put]
  split
  · exact .inl ⟨_, rfl⟩
  · cases slot with
    | tally => exact .inr ⟨s.history, rfl⟩
    | checkpoint =>
        simp only
        split
        · exact .inl ⟨_, rfl⟩
        · exact .inr ⟨_, rfl⟩

instance : FaithfulStore MemoryStore where
  held := document?
  held_get s key slot := by
    rcases get_eq s key slot with ⟨f, n, h⟩ | h
    · show document? (s.get key slot).2 = _
      rw [h]
      rfl
    · show document? (s.get key slot).2 = _
      rw [h]
  get_ok s key slot doc s' h := by
    rcases get_eq s key slot with ⟨f, n, h'⟩ | h'
    · cases h'.symm.trans h
    · cases h'.symm.trans h
      rfl
  put_ok s key slot doc s' h key' slot' := by
    rcases put_eq s key slot doc with ⟨f, h'⟩ | ⟨history, h'⟩
    · cases h'.symm.trans h
    · cases h'.symm.trans h
      exact document?_put s key slot doc history s.failingLoads key' slot'
  put_error s key slot doc f s' h := by
    rcases put_eq s key slot doc with ⟨f', h'⟩ | ⟨history, h'⟩
    · cases h'.symm.trans h
      rfl
    · cases h'.symm.trans h

end MemoryStore

end Harvesting
