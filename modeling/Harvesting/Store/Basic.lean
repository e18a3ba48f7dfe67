import Harvesting.Progress.Key
import Harvesting.Progress.Tally

/-!
# Stores of progress

A store keeps two documents per key, the checkpoint and the tally.

* `Slot` — which of the two; `Store.Fault` — why a store refuses, with its wording;
* `Store` — the operations that every store has, each giving an answer and the store after it;
* `Store.load`, `Store.save`, `Store.loadTally`, `Store.saveTally`, `Store.reset` — the same for
  checkpoints and tallies.
-/

namespace Harvesting

/-- Which document of a source. -/
inductive Slot where
  | checkpoint
  | tally
  deriving Repr, DecidableEq

/-- The name under which the document is kept. -/
def Slot.id : Slot → String
  | .checkpoint => "_last"
  | .tally => "_state"

namespace Store

/-- Why a store refuses. -/
inductive Fault where
  /-- The disk refused. -/
  | io (reason : String)
  /-- A document is there and cannot be understood. -/
  | corrupt (id reason : String)
  | unavailable (reason : String)
  | invalidKey (key : String)
  deriving Repr, DecidableEq

def Fault.message : Fault → String
  | .io r => "checkpoint store I/O error: " ++ r
  | .corrupt id r => "corrupt document '" ++ id ++ "': " ++ r
  | .unavailable r => "checkpoint store unavailable: " ++ r
  | .invalidKey k =>
    "invalid checkpoint key '" ++ k ++ "': use letters, digits, '.', '_' or '-'"

/-- Refuses a text that is no key. -/
def validate (key : String) : Except Fault Unit :=
  if Key.isValid key then .ok () else .error (.invalidKey key)

/-- The answer of a store and the store after it. -/
abbrev Answer (σ α : Type) := Except Fault α × σ

end Store

/-- The operations that every store has. -/
class Store (σ : Type) where
  /-- The document, if there is one. -/
  get : σ → String → Slot → Store.Answer σ (Option Json)
  /-- Puts a document in place of the one that is there. -/
  put : σ → String → Slot → Json → Store.Answer σ Unit
  /-- Removes the document; whether there was one. -/
  remove : σ → String → Slot → Store.Answer σ Bool

namespace Store

variable {σ : Type} [Store σ]

/-- The name of a document in faults. -/
def documentId (key : String) (slot : Slot) : String := key ++ "/" ++ slot.id

/-- The value of a document, or the fault that names it. -/
def understood {α : Type} (key : String) (slot : Slot) (r : Except Tree.Mismatch α) : Except Fault α :=
  r.mapError fun m => .corrupt (documentId key slot) m.message

/-- The stored checkpoint; none if the source was never harvested. -/
def load (s : σ) (key : String) : Answer σ (Option Checkpoint) :=
  match Store.get s key .checkpoint with
  | (.ok (some doc), s) => ((understood key .checkpoint (Checkpoint.ofDocument doc)).map some, s)
  | (.ok none, s) => (.ok none, s)
  | (.error e, s) => (.error e, s)

def save (s : σ) (key : String) (c : Checkpoint) : Answer σ Unit :=
  Store.put s key .checkpoint c.toDocument

/-- The stored tally, or the empty one. -/
def loadTally (s : σ) (key : String) : Answer σ Tally :=
  match Store.get s key .tally with
  | (.ok (some doc), s) => (understood key .tally (Tally.ofDocument doc), s)
  | (.ok none, s) => (.ok Tally.empty, s)
  | (.error e, s) => (.error e, s)

def saveTally (s : σ) (key : String) (t : Tally) : Answer σ Unit :=
  Store.put s key .tally t.toDocument

/-- Removes the checkpoint; the tally stays. -/
def reset (s : σ) (key : String) : Answer σ Bool := Store.remove s key .checkpoint

end Store

end Harvesting
