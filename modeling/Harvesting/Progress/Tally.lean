import Harvesting.Progress.Checkpoint

/-!
# Tallies

The running account of a source: when it was first and last harvested, how many records and cycles
there were, and whether a cycle is going on.

* `Tally`, `Tally.start`, `Tally.finish`;
* `Tally.toDocument`, `Tally.ofDocument` — its stored document. Times are kept to the nanosecond.
-/

namespace Harvesting

/-- The running account of a source. -/
structure Tally where
  /-- Begin of the first cycle. -/
  started : Option Instant
  /-- Begin or end of the last cycle. -/
  timestamp : Option Instant
  /-- Records harvested. -/
  counter : Nat
  cycles : Nat
  /-- A cycle has begun and has not finished. -/
  active : Bool
  deriving Repr, DecidableEq

namespace Tally

/-- The account before the first cycle. -/
def empty : Tally := ⟨none, none, 0, 0, false⟩

def start (s : Tally) (now : Instant) : Tally :=
  { s with started := some (s.started.getD now), timestamp := some now, active := true }

/-- A cycle ends with so many records. -/
def finish (s : Tally) (now : Instant) (records : Nat) : Tally :=
  { s with
    timestamp := some now
    counter := s.counter + records
    cycles := s.cycles + 1
    active := false }

/-- The part of the document about the account. -/
def toJson (s : Tally) : Json :=
  Json.ofFields <|
    Checkpoint.member "started" (fun t => .string (Stamp.text t)) s.started ++
    Checkpoint.member "timestamp" (fun t => .string (Stamp.text t)) s.timestamp ++
    [("counter", .int s.counter), ("cycles", .int s.cycles), ("active", .bool s.active)]

def toDocument (s : Tally) : Json := Json.ofFields [("state", s.toJson)]

def instant (t : Tree) : Except Tree.Mismatch Instant := do
  let raw ← Tree.string .document "an RFC 3339 formatted date and time string" t
  match Stamp.lenient raw.toList with
  | .ok t => return t
  | .error f => .error (Tree.Mismatch.of .document (.custom f.message))

def count : Tree → Except Tree.Mismatch Nat := Tree.unsigned .document "u64" 64

/-- The members of the part about the account. -/
def schema : Tree.Schema := [
  ("started", Tree.check (Tree.optional instant)),
  ("timestamp", Tree.check (Tree.optional instant)),
  ("counter", Tree.check count),
  ("cycles", Tree.check count),
  ("active", Tree.check (Tree.boolean .document))]

/-- The account of the part about it. -/
def ofTree (t : Tree) : Except Tree.Mismatch Tally := do
  let ms ← Tree.record .document "HarvestState" schema 0 t
  return {
    started := ← ms.get "started" none (Tree.optional instant)
    timestamp := ← ms.get "timestamp" none (Tree.optional instant)
    counter := ← ms.get "counter" 0 count
    cycles := ← ms.get "cycles" 0 count
    active := ← ms.get "active" false (Tree.boolean .document) }

/-- The account of a stored document. -/
def ofDocument (doc : Json) : Except Tree.Mismatch Tally := do
  let ms ← Tree.record .document "StateDocument" [("state", Tree.check ofTree)] 1
    (Tree.ofJson none doc)
  match ms.tree? "state" with
  | some t => ofTree t
  | none => .error (Tree.Mismatch.of .document (.missingField "state"))

end Tally

end Harvesting
