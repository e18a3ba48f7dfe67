import Harvesting.Output.Bulk
import Harvesting.Settings.Sink

/-!
# Batchers

The state of a sink that writes in bulk. Documents wait in a buffer until there are enough of them for a
batch; batches are sent without waiting for the answers, up to so many at a time; a flush waits for all
answers and tells the first fault.

Answers come in any order. `land` takes one in, and `join` looks at those that have come. What happens
between the calls of `land` is up to the surroundings: `Delivery` is one way.

* `Batcher`, `Batcher.of` — the state, and an empty one;
* `Batcher.Refusal` — why there is none;
* `add`, `takeRest` — documents into the buffer, and out of it;
* `mayLaunch`, `launch`, `land`, `join` — batches on their way;
* `takeFault`, `shut` — the end of a flush, and of the sink.
-/

namespace Harvesting

/-- A batch on its way. -/
structure Flight where
  /-- The batches before it. -/
  number : Nat
  documents : List Document

/-- A sink that writes in bulk. -/
structure Batcher where
  endpoint : Address
  /-- Documents in a batch, at least one. -/
  size : Nat
  /-- Batches at one time, at least one. -/
  lanes : Nat
  timeout : Span
  /-- Documents that wait for a batch, in order. -/
  buffer : List Document
  /-- Batches sent and not answered, in order. -/
  flying : List Flight
  /-- Answers that were not looked at, in the order in which they came. -/
  landed : List (Except SinkFault Unit)
  /-- The first fault since the last flush. -/
  fault : Option SinkFault
  closed : Bool
  sent : Nat

namespace Batcher

def endpoint? (url : String) : Except SinkFault Address :=
  let base := (url.toList.reverse.dropWhile (· = '/')).reverse
  (Address.parse (String.ofList base ++ "/_bulk")).mapError fun _ => .invalidEndpoint url

/-- The most batches at one time: they are counted in 64 bits, three of which are taken. -/
def maxLanes : Nat := 2305843009213693951

/-- Why there is no batcher for some settings. -/
inductive Refusal where
  | sink (f : SinkFault)
  /-- There would be more batches at one time than can be counted. -/
  | tooManyLanes
  deriving Repr, DecidableEq

def of (s : SinkSettings) (processors : Nat) : Except Refusal Batcher := do
  let endpoint ← (endpoint? s.url).mapError .sink
  let lanes := max 1 (s.concurrency.getD processors)
  if maxLanes < lanes then throw .tooManyLanes
  return ⟨endpoint, max 1 s.batchSize, lanes, s.timeout, [], [], [], none, false, 0⟩

/-- Takes a document into the buffer; a full buffer is the next batch. -/
def add (b : Batcher) (d : Document) : Option (List Document) × Batcher :=
  let buffer := b.buffer ++ [d]
  if b.size ≤ buffer.length then (some buffer, { b with buffer := [] })
  else (none, { b with buffer := buffer })

/-- What is in the buffer is the next batch, unless there is nothing. -/
def takeRest (b : Batcher) : Option (List Document) × Batcher :=
  (if b.buffer = [] then none else some b.buffer, { b with buffer := [] })

def mayLaunch (b : Batcher) : Bool := b.flying.length < b.lanes

/-- Looks at the answers that came: the first fault is kept. -/
def join (b : Batcher) : Batcher :=
  let first? (kept : Option SinkFault) : Except SinkFault Unit → Option SinkFault
    | .ok () => kept
    | .error e => some (kept.getD e)
  { b with landed := [], fault := b.landed.foldl first? b.fault }

def launch (b : Batcher) (batch : List Document) : Batcher :=
  let b := b.join
  { b with flying := b.flying ++ [⟨b.sent, batch⟩], sent := b.sent + 1 }

/-- The answer to a batch comes. -/
def land (b : Batcher) (number : Nat) (verdict : Except SinkFault Unit) : Batcher :=
  { b with flying := b.flying.filter (·.number ≠ number), landed := b.landed ++ [verdict] }

/-- Tells the first fault and forgets it. -/
def takeFault (b : Batcher) : SinkAnswer Batcher :=
  (match b.fault with
    | some e => .error e
    | none => .ok (), { b with fault := none })

def shut (b : Batcher) : Batcher := { b with closed := true }

end Batcher

end Harvesting
