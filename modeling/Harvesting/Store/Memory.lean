import Harvesting.Store.Basic

/-!
# The store in memory

Keeps the documents as they are given and remembers every checkpoint that was put. It can be told to
fail the next readings.

* `MemoryStore`, `MemoryStore.empty`, `MemoryStore.failNextLoads`;
* the instance of `Store`.
-/

namespace Harvesting

/-- A store that lasts as long as the program. -/
structure MemoryStore where
  /-- The documents by key and slot, the last one put first. -/
  documents : List ((String × Slot) × Json)
  /-- Every checkpoint put, in order. -/
  history : List Checkpoint
  /-- How many of the next readings fail. -/
  failingLoads : Nat
  deriving Inhabited

namespace MemoryStore

def empty : MemoryStore := ⟨[], [], 0⟩

def failNextLoads (s : MemoryStore) (count : Nat) : MemoryStore := { s with failingLoads := count }

def document? (s : MemoryStore) (key : String) (slot : Slot) : Option Json :=
  (s.documents.find? (·.1 = (key, slot))).map (·.2)

def others (s : MemoryStore) (key : String) (slot : Slot) : List ((String × Slot) × Json) :=
  s.documents.filter (·.1 ≠ (key, slot))

def get (s : MemoryStore) (key : String) (slot : Slot) : Store.Answer MemoryStore (Option Json) :=
  match Store.validate key with
  | .error e => (.error e, s)
  | .ok () =>
    if 0 < s.failingLoads then
      (.error (.unavailable "injected load failure"), { s with failingLoads := s.failingLoads - 1 })
    else (.ok (s.document? key slot), s)

/-- A checkpoint must be one; it goes into the history. -/
def put (s : MemoryStore) (key : String) (slot : Slot) (doc : Json) : Store.Answer MemoryStore Unit :=
  match Store.validate key with
  | .error e => (.error e, s)
  | .ok () =>
    let kept : MemoryStore := { s with documents := ((key, slot), doc) :: s.others key slot }
    match slot with
    | .tally => (.ok (), kept)
    | .checkpoint =>
      match Store.understood key slot (Checkpoint.ofDocument doc) with
      | .error e => (.error e, s)
      | .ok c => (.ok (), { kept with history := s.history ++ [c] })

def remove (s : MemoryStore) (key : String) (slot : Slot) : Store.Answer MemoryStore Bool :=
  match Store.validate key with
  | .error e => (.error e, s)
  | .ok () => (.ok (s.document? key slot).isSome, { s with documents := s.others key slot })

instance : Store MemoryStore := ⟨get, put, remove⟩

end MemoryStore

end Harvesting
