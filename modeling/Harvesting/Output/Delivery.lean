import Harvesting.Output.Batcher

/-!
# Deliveries

A batcher whose batches go to a server that is asked at once and whose answers come as late as they
can: an answer is taken in when a lane is needed or when a flush waits for it. Of the answers on their
way those that a server gave come first, in the order of the batches, and then those that ran out of
time.

* `Delivery` — the batcher and the answers on their way;
* `Delivery.index`, `flush`, `close` — the sink, over any server `answer`.
-/

namespace Harvesting

/-- The answer to a batch, on its way. -/
structure Delivery.Pending where
  number : Nat
  /-- It ran out of time. -/
  late : Bool
  verdict : Except SinkFault Unit

/-- A batcher and the answers on their way. -/
structure Delivery where
  batcher : Batcher
  pending : List Delivery.Pending

namespace Delivery

/-- What the sink answers, with the sink and the server after it. -/
abbrev Result (σ : Type) := Except SinkFault Unit × Delivery × σ

variable {σ : Type} (answer : σ → Call → Reply × σ)

/-- A delivery before its first document. -/
def start (b : Batcher) : Delivery := ⟨b, []⟩

/-- Takes in the first answer that comes. -/
def landFirst (d : Delivery) : Delivery :=
  match d.pending.find? (¬ ·.late) <|> d.pending.head? with
  | none => d
  | some p => ⟨d.batcher.land p.number p.verdict, d.pending.filter (·.number ≠ p.number)⟩

/-- Takes in all answers and looks at them. -/
def landAll (d : Delivery) : Delivery :=
  let prompt := d.pending.filter (¬ ·.late)
  let late := d.pending.filter (·.late)
  ⟨((prompt ++ late).foldl (fun b p => b.land p.number p.verdict) d.batcher).join, []⟩

/-- Sends a batch as soon as there is a lane. -/
def dispatch (d : Delivery) (s : σ) (batch : List Document) : Result σ :=
  if d.batcher.closed then (.error .closed, d, s)
  else
    let d := if d.batcher.mayLaunch then d else d.landFirst
    let b := d.batcher
    let launched (late : Bool) (verdict : Except SinkFault Unit) (s : σ) : Result σ :=
      (.ok (), ⟨b.launch batch, d.pending ++ [⟨b.sent, late, verdict⟩]⟩, s)
    if b.endpoint.isWeb then
      match answer s (Bulk.call b.endpoint batch) with
      | (reply, s) =>
        launched (reply = .silent) (Bulk.verdict b.endpoint b.timeout batch.length reply) s
    else launched false (.error (Bulk.broken "builder error" b.endpoint)) s

/-- Takes a document, unless closed. -/
def index (d : Delivery) (s : σ) (doc : Document) : Result σ :=
  if d.batcher.closed then (.error .closed, d, s)
  else match d.batcher.add doc with
    | (none, b) => (.ok (), { d with batcher := b }, s)
    | (some batch, b) => dispatch answer { d with batcher := b } s batch

/-- Sends the rest, waits for all answers and tells the first fault. -/
def flush (d : Delivery) (s : σ) : Result σ :=
  let settle (d : Delivery) (s : σ) : Result σ :=
    let d := d.landAll
    match d.batcher.takeFault with
    | (a, b) => (a, { d with batcher := b }, s)
  match d.batcher.takeRest with
  | (none, b) => settle { d with batcher := b } s
  | (some batch, b) =>
    match dispatch answer { d with batcher := b } s batch with
    | (.ok (), d, s) => settle d s
    | refused => refused

/-- Flushes and closes, whatever the flush tells. -/
def close (d : Delivery) (s : σ) : Result σ :=
  match flush answer d s with
  | (a, d, s) => (a, { d with batcher := d.batcher.shut }, s)

end Delivery

end Harvesting
