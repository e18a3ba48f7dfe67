import Harvesting.Output.Sink

/-!
# Documents on the shelf

A flush writes the waiting documents one by one, and of several documents with one id the last one
written stays.

* `overlay` — documents by their ids, after some more have been written;
* `Shelf.index_ok`, `Shelf.flush_ok` and their like — what an answer says of the shelf after it.
-/

namespace Harvesting

/-- The documents by their ids after `ds` were written one by one. -/
def overlay (ds : List Document) (kept : String → Option Document) (id : String) : Option Document :=
  (ds.reverse.find? (·.id = id)).or (kept id)

theorem overlay_append (a b : List Document) (kept : String → Option Document) (id : String) :
    overlay (a ++ b) kept id = overlay b (overlay a kept) id := by
  simp [overlay, List.find?_append, Option.or_assoc]

/-- An id that is not written keeps its document. -/
theorem overlay_of_notMem {ds : List Document} {kept : String → Option Document} {id : String}
    (h : id ∉ ds.map (·.id)) : overlay ds kept id = kept id := by
  have hnone : ds.reverse.find? (·.id = id) = none := by
    rw [List.find?_eq_none]
    intro d hd hid
    exact h (List.mem_map.2 ⟨d, List.mem_reverse.1 hd, by simpa using hid⟩)
  rw [overlay, hnone, Option.none_or]

/-- An id that is written has a document, which does not depend on what was there. -/
theorem exists_overlay_of_mem {ds : List Document} {id : String} (h : id ∈ ds.map (·.id)) :
    ∃ d, ∀ kept, overlay ds kept id = some d := by
  obtain ⟨d, hd, hid⟩ := List.mem_map.1 h
  have hsome : (ds.reverse.find? (·.id = id)).isSome = true :=
    List.find?_isSome.2 ⟨d, List.mem_reverse.2 hd, by simpa using hid⟩
  obtain ⟨e, he⟩ := Option.isSome_iff_exists.1 hsome
  exact ⟨e, fun kept => by rw [overlay, he, Option.some_or]⟩

namespace Shelf

theorem find?_upsert (d : Document) (l : List Document) (id : String) :
    (upsert d l).find? (·.id = id) = if d.id = id then some d else l.find? (·.id = id) := by
  induction l with
  | nil => by_cases h : d.id = id <;> simp [upsert, h]
  | cons e r ih =>
      rw [upsert]
      split
      · -- the document takes the place of an older one
        next hsame => by_cases h : d.id = id <;> simp [← hsame, h]
      · next hother =>
        split
        · by_cases h : d.id = id <;> simp [h]
        · by_cases he : e.id = id
          · have hd : d.id ≠ id := fun h => hother (h.trans he.symm)
            simp [he, hd]
          · simp [he, ih]

theorem find?_foldl_upsert (ds l : List Document) (id : String) :
    (ds.foldl (fun kept d => upsert d kept) l).find? (·.id = id) =
      overlay ds (fun id => l.find? (·.id = id)) id := by
  induction ds generalizing l with
  | nil => simp [overlay]
  | cons d ds ih =>
      -- the first document is written before the others, so to them it is one that is kept
      rw [List.foldl_cons, ih, ← List.singleton_append, overlay_append]
      congr 1
      funext x
      show (upsert d l).find? (·.id = x) = overlay [d] (fun id => l.find? (·.id = id)) x
      rw [find?_upsert]
      by_cases h : d.id = x
      · simp [overlay, h]
      · simp [overlay, h]

variable {s s' : Shelf} {d : Document} {f : SinkFault}

theorem mem_committedIds {id : String} : id ∈ s.committedIds ↔ (s.document? id).isSome = true := by
  rw [committedIds, document?, List.find?_isSome, List.mem_map]
  simp

theorem index_ok (h : s.index d = (.ok (), s')) :
    s'.pending = s.pending ++ [d] ∧ s'.committed = s.committed := by
  rw [index] at h
  split at h
  · cases h
  · cases h
    exact ⟨rfl, rfl⟩

theorem index_error (h : s.index d = (.error f, s')) : s' = s := by
  rw [index] at h
  split at h
  · cases h
    rfl
  · cases h

theorem flush_ok (h : s.flush = (.ok (), s')) :
    s'.pending = [] ∧ s'.document? = overlay s.pending s.document? := by
  rw [flush] at h
  split at h
  · cases h
  · cases h
    exact ⟨rfl, funext fun id => find?_foldl_upsert s.pending s.committed id⟩

theorem flush_error (h : s.flush = (.error f, s')) :
    s'.pending = s.pending ∧ s'.committed = s.committed := by
  rw [flush] at h
  split at h
  · cases h
    exact ⟨rfl, rfl⟩
  · cases h

end Shelf

end Harvesting
