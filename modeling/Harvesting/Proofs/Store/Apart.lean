import Harvesting.Proofs.Store.Archive
import Harvesting.Proofs.Store.Faithful
import Harvesting.Store.Backend

/-!
# Sources apart in one store

What a source finds in a store is decided by its own documents, and what is done for one source leaves the
documents of all others as they are.

* `Backend.Faultless`, `Backend.Serves` — the store keeps the documents of a source without faults;
* `Backend.Alike` — two stores that serve a source and hold the same documents of it;
* `Backend.Alike.get`, `Backend.Alike.put` — what the source does is answered alike, and they stay alike;
* `Backend.Serves.get_snd`, `Backend.Alike.put_elsewhere` — so they do when another source does it;
* `Backend.Serves.load`, `Backend.Serves.loadTally` — checkpoints and tallies are loaded alike.
-/

namespace Harvesting

/-- The answer is that a text is no key. -/
def Store.RefusesKey {α : Type} (r : Except Store.Fault α) : Prop := ∃ k, r = .error (.invalidKey k)

namespace Store

variable {σ : Type} [Store σ]

/-- A checkpoint that is loaded is a document that is read. -/
theorem load_of_get {s s' : σ} {key : String} {r : Except Fault (Option Json)}
    (h : Store.get s key .checkpoint = (r, s')) : Store.load s key =
      (r.bind fun o => match o with
        | some doc => (understood key .checkpoint (Checkpoint.ofDocument doc)).map some
        | none => .ok none, s') := by
  rw [Store.load, h]
  rcases r with e | ⟨_ | doc⟩ <;> rfl

/-- A tally that is loaded is a document that is read. -/
theorem loadTally_of_get {s s' : σ} {key : String} {r : Except Fault (Option Json)}
    (h : Store.get s key .tally = (r, s')) : Store.loadTally s key =
      (r.bind fun o => match o with
        | some doc => understood key .tally (Tally.ofDocument doc)
        | none => .ok Tally.empty, s') := by
  rw [Store.loadTally, h]
  rcases r with e | ⟨_ | doc⟩ <;> rfl

theorem not_refusesKey_bind {α β : Type} {r : Except Fault α} {f : α → Except Fault β} (hr : ¬ RefusesKey r)
    (hf : ∀ a, ¬ RefusesKey (f a)) : ¬ RefusesKey (r.bind f) := by
  cases r with
  | error e =>
      rintro ⟨k, hk⟩
      cases hk
      exact hr ⟨k, rfl⟩
  | ok a => exact hf a

theorem not_refusesKey_map {α β : Type} {r : Except Fault α} (hr : ¬ RefusesKey r) (f : α → β) :
    ¬ RefusesKey (r.map f) := by
  cases r with
  | error e =>
      rintro ⟨k, hk⟩
      cases hk
      exact hr ⟨k, rfl⟩
  | ok a =>
      rintro ⟨k, hk⟩
      cases hk

/-- What a document is taken for has nothing to do with its key. -/
theorem not_refusesKey_understood {α : Type} (key : String) (slot : Slot) (r : Except Tree.Mismatch α) :
    ¬ RefusesKey (understood key slot r) := by
  rintro ⟨k, hk⟩
  cases r <;> cases hk

end Store

open Store (RefusesKey)

/-! ## On disk -/

namespace Archive

/-- The source can be stored in both, and there is the same in the places of its documents. -/
structure Alike (key : String) (a a' : Archive) : Prop where
  cwd : a'.cwd = a.cwd
  root : a'.root = a.root
  ready : ∀ slot, a.Ready key slot
  ready' : ∀ slot, a'.Ready key slot
  there : ∀ slot, a'.there key slot .current = a.there key slot .current

variable {a a' : Archive} {key key' : String} {slot : Slot} {doc : Json}

theorem Alike.get_eq (h : Alike key a a') (slot : Slot) :
    (Store.get a' key slot).1 = (Store.get a key slot).1 := by
  have hvalid := (h.ready slot).valid
  rw [Archive.get_eq hvalid, Archive.get_eq hvalid, h.there, pathText, pathText, h.root]

theorem get_snd (a : Archive) (key : String) (slot : Slot) : (Store.get a key slot).2 = a := by
  by_cases hvalid : Key.isValid key = true
  · rw [Archive.get_eq hvalid]
  · rw [get_invalid hvalid]

theorem not_refusesKey_get (hvalid : Key.isValid key = true) (slot : Slot) :
    ¬ RefusesKey (Store.get a key slot).1 := by
  rw [Archive.get_eq hvalid]
  rintro ⟨k, hk⟩
  cases hthere : a.there key slot .current with
  | error e =>
      rw [hthere] at hk
      cases e <;> cases hk
  | ok e =>
      rw [hthere] at hk
      cases e with
      | folder => cases hk
      | file b =>
          rw [answer, parse] at hk
          cases htext : Disk.textOf? b with
          | none =>
              rw [htext] at hk
              cases hk
          | some s =>
              rw [htext] at hk
              cases hread : Json.read s with
              | error f =>
                  simp only [hread] at hk
                  cases hk
              | ok v =>
                  simp only [hread] at hk
                  cases hk

/-- A document of the source is put in both. -/
theorem Alike.put (h : Alike key a a') (slot : Slot) (doc : Json) :
    (Store.put a' key slot doc).1 = (Store.put a key slot doc).1 ∧
      Alike key (Store.put a key slot doc).2 (Store.put a' key slot doc).2 := by
  obtain ⟨m, hput, hchanges⟩ := put_ready (h.ready slot) doc
  obtain ⟨m', hput', hchanges'⟩ := put_ready (h.ready' slot) doc
  have hvalid := (h.ready slot).valid
  rw [hput, hput']
  refine ⟨rfl, ?_, ?_, ?_, ?_, ?_⟩
  · rw [hchanges'.cwd, hchanges.cwd, h.cwd]
  · rw [hchanges'.root, hchanges.root, h.root]
  · exact fun slot' => hchanges.ready (h.ready slot')
  · exact fun slot' => hchanges'.ready (h.ready' slot')
  · intro slot'
    by_cases heq : (key, slot') = (key, slot)
    · cases heq
      rw [hchanges'.current, hchanges.current]
    · rw [hchanges'.elsewhere key slot' .current hvalid heq (h.ready' slot').reachable,
        hchanges.elsewhere key slot' .current hvalid heq (h.ready slot').reachable, h.there]

/-- A document of another source is put in the first of them. -/
theorem Alike.put_elsewhere (h : Alike key a a') (hother : ∀ slot, a.Ready key' slot) (hne : key ≠ key')
    (slot : Slot) (doc : Json) : Alike key (Store.put a key' slot doc).2 a' := by
  obtain ⟨m, hput, hchanges⟩ := put_ready (hother slot) doc
  have hapart (slot' : Slot) : (key, slot') ≠ (key', slot) := fun heq => hne (Prod.mk.inj heq).1
  rw [hput]
  refine ⟨?_, ?_, ?_, h.ready', ?_⟩
  · rw [hchanges.cwd, h.cwd]
  · rw [hchanges.root, h.root]
  · exact fun slot' => hchanges.ready (h.ready slot')
  · intro slot'
    have hready := h.ready slot'
    rw [hchanges.elsewhere key slot' .current hready.valid (hapart slot') hready.reachable, h.there]

end Archive

/-! ## In memory -/

namespace MemoryStore

/-- No reading fails, and both hold the same documents of the source. -/
structure Alike (key : String) (s s' : MemoryStore) : Prop where
  valid : Key.isValid key = true
  loads : s.failingLoads = 0
  loads' : s'.failingLoads = 0
  documents : ∀ slot, s'.document? key slot = s.document? key slot

variable {s s' : MemoryStore} {key key' : String} {slot : Slot} {doc : Json}

theorem get_of_loads (hvalid : Key.isValid key = true) (h : s.failingLoads = 0) (slot : Slot) :
    Store.get s key slot = (.ok (s.document? key slot), s) := by
  show s.get key slot = _
  rw [get, Store.validate, if_pos hvalid, h]
  rfl

theorem Alike.get_eq (h : Alike key s s') (slot : Slot) :
    (Store.get s' key slot).1 = (Store.get s key slot).1 := by
  rw [get_of_loads h.valid h.loads, get_of_loads h.valid h.loads', h.documents]

/-- Whether a document is put does not depend on what is there. -/
theorem put_eq_or (hvalid : Key.isValid key = true) (slot : Slot) (doc : Json) :
    (∃ f, (∀ s : MemoryStore, Store.put s key slot doc = (.error f, s)) ∧ ∀ k, f ≠ .invalidKey k) ∨
    ∀ s : MemoryStore, ∃ history, Store.put s key slot doc =
      (.ok (), ⟨((key, slot), doc) :: s.others key slot, history, s.failingLoads⟩) := by
  have hput (s : MemoryStore) : Store.put s key slot doc = s.put key slot doc := rfl
  simp only [hput, put, Store.validate, if_pos hvalid]
  cases slot with
  | tally => exact .inr fun s => ⟨s.history, rfl⟩
  | checkpoint =>
      cases hread : Checkpoint.ofDocument doc with
      | error m => exact .inl ⟨_, fun s => rfl, by simp⟩
      | ok c => exact .inr fun s => ⟨s.history ++ [c], rfl⟩

/-- A document of the source is put in both or in neither. -/
theorem Alike.put (h : Alike key s s') (slot : Slot) (doc : Json) :
    (Store.put s' key slot doc).1 = (Store.put s key slot doc).1 ∧
      Alike key (Store.put s key slot doc).2 (Store.put s' key slot doc).2 := by
  rcases put_eq_or h.valid slot doc with ⟨f, hrefused, -⟩ | hput
  · rw [hrefused s, hrefused s']
    exact ⟨rfl, h⟩
  · obtain ⟨history, hs⟩ := hput s
    obtain ⟨history', hs'⟩ := hput s'
    rw [hs, hs']
    refine ⟨rfl, h.valid, h.loads, h.loads', ?_⟩
    intro slot'
    rw [document?_put, document?_put, h.documents]

/-- A document of another source is put in the first of them. -/
theorem Alike.put_elsewhere (h : Alike key s s') (hvalid : Key.isValid key' = true) (hne : key ≠ key')
    (slot : Slot) (doc : Json) : Alike key (Store.put s key' slot doc).2 s' := by
  rcases put_eq_or hvalid slot doc with ⟨f, hrefused, -⟩ | hput
  · rw [hrefused s]
    exact h
  · obtain ⟨history, hs⟩ := hput s
    rw [hs]
    refine ⟨h.valid, h.loads, h.loads', ?_⟩
    intro slot'
    rw [document?_put, if_neg (fun heq => hne (Prod.mk.inj heq).1), h.documents]

end MemoryStore

/-! ## The configured store -/

namespace Backend

/-- No fault comes from the disk or on purpose: every place of the source can be written, and no reading fails. -/
def Faultless (key : String) : Backend → Prop
  | .archive a => (∀ name ∈ a.folder key, Disk.Short name) ∧ ∀ slot role, a.Free key slot role
  | .memory s => s.failingLoads = 0

/-- The store keeps the documents of the source: its key is one, and there are no faults. -/
def Serves (key : String) : Backend → Prop
  | .archive a => ∀ slot, a.Ready key slot
  | .memory s => Key.isValid key = true ∧ s.failingLoads = 0

/-- Both stores serve the source, and they hold the same documents of it. -/
def Alike (key : String) : Backend → Backend → Prop
  | .archive a, .archive a' => Archive.Alike key a a'
  | .memory s, .memory s' => MemoryStore.Alike key s s'
  | _, _ => False

variable {b b' : Backend} {key key' : String}

theorem Faultless.serves (h : b.Faultless key) (hvalid : Key.isValid key = true) : b.Serves key := by
  cases b with
  | archive a => exact fun slot => ⟨hvalid, h.1, h.2 slot⟩
  | memory s => exact ⟨hvalid, h⟩

theorem Serves.alike (h : b.Serves key) : Alike key b b := by
  cases b with
  | archive a => exact ⟨rfl, rfl, h, h, fun _ => rfl⟩
  | memory s => exact ⟨h.1, h.2, h.2, fun _ => rfl⟩

theorem Alike.serves (h : Alike key b b') : b.Serves key := by
  cases b <;> cases b'
  · exact Archive.Alike.ready h
  · cases h
  · cases h
  · exact ⟨MemoryStore.Alike.valid h, MemoryStore.Alike.loads h⟩

theorem Alike.serves' (h : Alike key b b') : b'.Serves key := by
  cases b <;> cases b'
  · exact Archive.Alike.ready' h
  · cases h
  · cases h
  · exact ⟨MemoryStore.Alike.valid h, MemoryStore.Alike.loads' h⟩

/-- A store that serves a source is not changed by its readings. -/
theorem Serves.get_snd (h : b.Serves key) (slot : Slot) : (Store.get b key slot).2 = b := by
  cases b with
  | archive a => exact congrArg archive (Archive.get_snd a key slot)
  | memory s =>
      have hget := MemoryStore.get_of_loads h.1 h.2 slot
      exact congrArg (fun r => memory r.2) hget

theorem Alike.get (h : Alike key b b') (slot : Slot) :
    (Store.get b' key slot).1 = (Store.get b key slot).1 := by
  cases b <;> cases b'
  · exact Archive.Alike.get_eq h slot
  · cases h
  · cases h
  · exact MemoryStore.Alike.get_eq h slot

theorem Alike.put (h : Alike key b b') (slot : Slot) (doc : Json) :
    (Store.put b' key slot doc).1 = (Store.put b key slot doc).1 ∧
      Alike key (Store.put b key slot doc).2 (Store.put b' key slot doc).2 := by
  cases b <;> cases b'
  · exact Archive.Alike.put h slot doc
  · cases h
  · cases h
  · exact MemoryStore.Alike.put h slot doc

theorem Alike.put_elsewhere (h : Alike key b b') (hother : b.Serves key') (hne : key ≠ key') (slot : Slot)
    (doc : Json) : Alike key (Store.put b key' slot doc).2 b' := by
  cases b <;> cases b'
  · exact Archive.Alike.put_elsewhere h hother hne slot doc
  · cases h
  · cases h
  · exact MemoryStore.Alike.put_elsewhere h hother.1 hne slot doc

theorem Serves.not_refusesKey_get (h : b.Serves key) (slot : Slot) : ¬ RefusesKey (Store.get b key slot).1 := by
  cases b with
  | archive a => exact Archive.not_refusesKey_get (h slot).valid slot
  | memory s =>
      rintro ⟨k, hk⟩
      have hget := MemoryStore.get_of_loads h.1 h.2 slot
      cases (congrArg Prod.fst hget).symm.trans hk

theorem Serves.not_refusesKey_put (h : b.Serves key) (slot : Slot) (doc : Json) :
    ¬ RefusesKey (Store.put b key slot doc).1 := by
  cases b with
  | archive a =>
      rintro ⟨k, hk⟩
      obtain ⟨m, hput, -⟩ := Archive.put_ready (h slot) doc
      cases (congrArg Prod.fst hput).symm.trans hk
  | memory s =>
      rintro ⟨k, hk⟩
      rcases MemoryStore.put_eq_or h.1 slot doc with ⟨f, hrefused, hf⟩ | hput
      · cases (congrArg Prod.fst (hrefused s)).symm.trans hk
        exact hf k rfl
      · obtain ⟨history, hs⟩ := hput s
        cases (congrArg Prod.fst hs).symm.trans hk

/-! ## Checkpoints and tallies -/

/-- A checkpoint is loaded alike, and no store that serves the source is changed by that. -/
theorem Serves.load (h : b.Serves key) :
    (Store.load b key).2 = b ∧ ¬ RefusesKey (Store.load b key).1 ∧
      ∀ b', Alike key b b' → (Store.load b' key).1 = (Store.load b key).1 := by
  have hget (b : Backend) : Store.get b key .checkpoint =
      ((Store.get b key .checkpoint).1, (Store.get b key .checkpoint).2) := rfl
  simp only [Store.load_of_get (hget _)]
  refine ⟨h.get_snd _, ?_, ?_⟩
  · apply Store.not_refusesKey_bind (h.not_refusesKey_get _)
    rintro (_ | doc)
    · rintro ⟨k, hk⟩
      cases hk
    · exact Store.not_refusesKey_map (Store.not_refusesKey_understood _ _ _) some
  · intro b' halike
    rw [halike.get]

theorem Serves.loadTally (h : b.Serves key) :
    (Store.loadTally b key).2 = b ∧ ¬ RefusesKey (Store.loadTally b key).1 ∧
      ∀ b', Alike key b b' → (Store.loadTally b' key).1 = (Store.loadTally b key).1 := by
  have hget (b : Backend) : Store.get b key .tally =
      ((Store.get b key .tally).1, (Store.get b key .tally).2) := rfl
  simp only [Store.loadTally_of_get (hget _)]
  refine ⟨h.get_snd _, ?_, ?_⟩
  · apply Store.not_refusesKey_bind (h.not_refusesKey_get _)
    rintro (_ | doc)
    · rintro ⟨k, hk⟩
      cases hk
    · exact Store.not_refusesKey_understood _ _ _
  · intro b' halike
    rw [halike.get]

end Backend

end Harvesting
