import Harvesting.Output.Sink
import Harvesting.Protocol.Request
import Harvesting.Store.Basic

/-!
# Programs

What a harvest does, as a tree: each node asks one thing of the surroundings (the clock, the store, the
repository, the sink, or to pause) and goes on with the answer. What the answers are is left open, so
that one program runs against a web server, against a script, or stops between any two questions.

* `Effect`, `Effect.Reply` — what can be asked, and the type of its answers;
* `Program` — the trees, a monad;
* `Program.run` — the result of a program where a function answers; `Program.runIn`, where a monad does;
* `Course` — programs in stages, which need not end.
-/

namespace Harvesting

/-- What a harvest asks of its surroundings. -/
inductive Effect where
  | cancelled
  /-- To wait for so long, or until the harvest is cancelled. -/
  | pause (length : Span)
  /-- The time by which windows are planned. -/
  | clock
  /-- The time by which schedules fire. -/
  | wallClock
  | load (key : String)
  | save (key : String) (c : Checkpoint)
  | loadTally (key : String)
  | saveTally (key : String) (t : Tally)
  /-- A page of the repository, within a time. -/
  | request (r : Request) (limit : Span)
  | index (d : Document)
  | flush
  | close

namespace Effect

/-- The answers to an effect. A pause answers whether its time passed in full. -/
abbrev Reply : Effect → Type
  | cancelled => Bool
  | pause _ => Bool
  | clock => Instant
  | wallClock => Instant
  | load _ => Except Store.Fault (Option Checkpoint)
  | save _ _ => Except Store.Fault Unit
  | loadTally _ => Except Store.Fault Tally
  | saveTally _ _ => Except Store.Fault Unit
  | request _ _ => Except SourceFault Page
  | index _ => Except SinkFault Unit
  | flush => Except SinkFault Unit
  | close => Except SinkFault Unit

end Effect

/-- A tree of effects with a result at the end of every branch. -/
inductive Program (α : Type) where
  | done (a : α)
  | ask (e : Effect) (next : e.Reply → Program α)

namespace Program

variable {α β σ : Type}

/-- The program that asks one thing. -/
def perform (e : Effect) : Program e.Reply := ask e done

/-- Goes on with the result of a program. -/
def bind : Program α → (α → Program β) → Program β
  | done a, f => f a
  | ask e next, f => ask e fun r => bind (next r) f

instance : Monad Program where
  pure := done
  bind := bind

/-- The result where `answer` answers each effect and keeps a state, and the last state. -/
def run (answer : σ → (e : Effect) → e.Reply × σ) : Program α → σ → α × σ
  | done a, s => (a, s)
  | ask e next, s => match answer s e with
    | (r, s) => run answer (next r) s

def runIn {m : Type → Type} [Monad m] (answer : (e : Effect) → m e.Reply) : Program α → m α
  | done a => return a
  | ask e next => do
    let r ← answer e
    runIn answer (next r)

end Program

/--
Programs one after another: a stage leads to the program whose result is the next stage. A stage
without one is an end.
-/
abbrev Course (σ : Type) := σ → Option (Program σ)

/-- Follows a course to its end, at most so many stages. -/
def Course.follow {σ ω : Type} (answer : ω → (e : Effect) → e.Reply × ω) (c : Course σ) :
    Nat → σ → ω → σ × ω
  | 0, s, w => (s, w)
  | fuel + 1, s, w =>
    match c s with
    | none => (s, w)
    | some p => match p.run answer w with
      | (s, w) => c.follow answer fuel s w

end Harvesting
