import Harvesting.Output.Document
import Harvesting.Time.Span

/-!
# Sinks

Where documents go.

* `SinkFault` — why a sink refuses, with its wording;
* `SinkAnswer` — what a sink says and the sink after it;
* `Shelf` — the sink in memory: documents wait until a flush puts them on the shelf by their ids. It
  can be told at which flush to fail.
-/

namespace Harvesting

/-- Why a sink refuses. -/
inductive SinkFault where
  | rejected (failed total : Nat) (firstError : String)
  | status (status : Nat) (body : String)
  | timeout (after : Span)
  | transport (reason : String)
  | invalidEndpoint (url : String)
  | closed
  deriving Repr, DecidableEq

def SinkFault.message : SinkFault → String
  | .rejected n t e =>
    "bulk request rejected " ++ toString n ++ " of " ++ toString t ++ " documents: " ++ e
  | .status s b => "bulk request failed with HTTP " ++ toString s ++ ": " ++ b
  | .timeout s => "bulk request timed out after " ++ s.text
  | .transport r => "bulk transport error: " ++ r
  | .invalidEndpoint u => "invalid bulk endpoint '" ++ u ++ "'"
  | .closed => "sink is closed"

/-- The answer of a sink and the sink after it. -/
abbrev SinkAnswer (κ : Type) := Except SinkFault Unit × κ

/-- The sink in memory. -/
structure Shelf where
  /-- Documents taken and not yet on the shelf, in order. -/
  pending : List Document
  /-- Documents on the shelf, in the order of their ids, each id once. -/
  committed : List Document
  flushes : Nat
  /-- The number of the last flush that was tried, the first one being 1. -/
  attempts : UInt64
  /-- Documents put on the shelf. -/
  writes : Nat
  /-- The number of the flush that fails. -/
  failAt : Option UInt64
  closed : Bool
  deriving Inhabited

namespace Shelf

def empty : Shelf := ⟨[], [], 0, 0, 0, none, false⟩

/-- The documents with `d` in place of the one with its id. -/
def upsert (d : Document) : List Document → List Document
  | [] => [d]
  | e :: r =>
    if d.id = e.id then d :: r
    else if d.id < e.id then d :: e :: r
    else e :: upsert d r

/-- Takes a document, unless closed. -/
def index (s : Shelf) (d : Document) : SinkAnswer Shelf :=
  if s.closed then (.error .closed, s) else (.ok (), { s with pending := s.pending ++ [d] })

/-- Puts the waiting documents on the shelf, one by one; the chosen flush fails and changes nothing. -/
def flush (s : Shelf) : SinkAnswer Shelf :=
  let attempt := s.attempts + 1
  if s.failAt = some attempt then
    (.error (.transport "injected flush failure"), { s with attempts := attempt, failAt := none })
  else
    (.ok (), { s with
      pending := []
      committed := s.pending.foldl (fun kept d => upsert d kept) s.committed
      flushes := s.flushes + 1
      attempts := attempt
      writes := s.writes + s.pending.length })

/-- Flushes and, if that succeeds, closes. -/
def close (s : Shelf) : SinkAnswer Shelf :=
  match s.flush with
  | (.ok (), s) => (.ok (), { s with closed := true })
  | (.error e, s) => (.error e, s)

/--
Chooses the flush that fails: the one after so many others. Its number is a sum of 64 bits that wraps, as the
numbers of the flushes do, so that it is reached after that many flushes also where the sum is too large.
-/
def failFlushAfter (s : Shelf) (successes : UInt64) : Shelf :=
  { s with failAt := some (s.attempts + successes + 1) }

def failNextFlush (s : Shelf) : Shelf := s.failFlushAfter 0

def committedIds (s : Shelf) : List String := s.committed.map (·.id)

def document? (s : Shelf) (id : String) : Option Document := s.committed.find? (·.id = id)

end Shelf

end Harvesting
