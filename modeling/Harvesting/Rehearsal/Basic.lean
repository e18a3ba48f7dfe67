import Harvesting.Cycle.Program
import Harvesting.Rehearsal.Note
import Harvesting.Store.Memory

/-!
# Rehearsals

Courses of several sources played against scripts, side by side, on a clock that only moves when all of
them wait. The sources share a store and the order to stop; each has its own sink and its own script.

* `Cue` — what the repository does at a request;
* `Scene`, `Player` — what the sources share, and what one source has to itself;
* `Player.advance` — a program up to its end or to where it has to wait;
* `Ensemble.play` — all courses up to their ends. Of several that go on at the same time, the one that
  began to wait first is the first.
-/

namespace Harvesting

/-- What the repository does at a request. -/
structure Cue where
  answer : Except SourceFault Page
  /-- Nanoseconds before the answer. -/
  delay : Nat
  /-- The harvest is cancelled before the answer. -/
  cancels : Bool
  closesSink : Bool

/-- What the sources share. -/
structure Scene where
  /-- Nanoseconds since the start. -/
  time : Nat
  store : MemoryStore
  /-- When the harvest is cancelled, as far as it is known. -/
  cancelAt : Option Nat
  /-- The time by which schedules fire. It stands still. -/
  wallClock : Instant

namespace Scene

def start (wallClock : Instant) : Scene := ⟨0, .empty, none, wallClock⟩

def isCancelled (s : Scene) : Bool := s.cancelAt.any (· ≤ s.time)

/-- Cancels the harvest after so many nanoseconds, unless it is cancelled earlier. -/
def cancelAfter (s : Scene) (delay : Nat) : Scene :=
  { s with cancelAt := some ((s.cancelAt.map (min · (s.time + delay))).getD (s.time + delay)) }

/-- Takes back the order to stop, also one for later. -/
def renew (s : Scene) : Scene := { s with cancelAt := none }

def sleep (s : Scene) (length : Nat) : Scene := { s with time := s.time + length }

def second (s : Scene) : Nat := s.time / 1000000000

end Scene

/-- What one source has to itself. -/
structure Player where
  shelf : Shelf
  script : List Cue
  refusals : List Bool
  /-- The notes, the last one first. -/
  notes : List Note
  /-- The time of the clock at the start. -/
  origin : Instant

namespace Player

def start (script : List Cue) (refusals : List Bool) (origin : Instant) : Player :=
  ⟨.empty, script, refusals, [], origin⟩

/-- The time of the clock, which ticks in whole seconds. -/
def clock (p : Player) (s : Scene) : Instant := (p.origin.after? (.ofSecs s.second)).getD p.origin

/-- Asks the store of the scene, with notes. -/
def consult {α : Type} (p : Player) (s : Scene)
    (f : Watched MemoryStore → Store.Answer (Watched MemoryStore) α) :
    Except Store.Fault α × Scene × Player :=
  match f ⟨s.store, p.refusals, p.notes⟩ with
  | (a, w) => (a, { s with store := w.store }, { p with refusals := w.refusals, notes := w.notes })

def hand (p : Player) (note : Except SinkFault Unit → Note) (f : Shelf → SinkAnswer Shelf) :
    Except SinkFault Unit × Player :=
  match f p.shelf with
  | (a, shelf) => (a, { p with shelf := shelf, notes := note a :: p.notes })

/-- What a program waits for. -/
inductive Wait (σ : Type) where
  | finished (s : σ)
  | pause (till : Nat) (next : Bool → Program σ)
  | answer (till : Nat) (cue : Cue) (next : Except SourceFault Page → Program σ)

/-- What the repository does at a request that it does not answer in time. -/
def lateCue (limit : Span) : Cue := ⟨.error (.timeout limit), limit.nanosTotal, false, false⟩

/-- What the repository does at a request after its script. -/
def lastCue : Cue := ⟨.error (.transport "script exhausted"), 0, false, false⟩

/-- What the repository does at the next request, and what is left of the script. -/
def nextCue (limit : Span) : List Cue → Cue × List Cue
  | [] => (lastCue, [])
  | c :: r => (if limit.nanosTotal < c.delay then lateCue limit else c, r)

/-- What happens when a cue is due. -/
def take (p : Player) (s : Scene) (c : Cue) : Scene × Player :=
  (if c.cancels then s.cancelAfter 0 else s,
    if c.closesSink then { p with shelf := p.shelf.close.2 } else p)

/-- Goes on with a program up to its end or to where it has to wait. -/
def advance {σ : Type} (p : Player) (s : Scene) : Program σ → Wait σ × Scene × Player
  | .done a => (.finished a, s, p)
  | .ask .cancelled next => advance p s (next s.isCancelled)
  | .ask (.pause length) next =>
    if s.isCancelled then advance p s (next false)
    else if length.isZero then advance p s (next true)
    else (.pause (s.time + length.nanosTotal) next, s, p)
  | .ask .clock next => advance p s (next (p.clock s))
  | .ask .wallClock next => advance p s (next s.wallClock)
  | .ask (.load key) next =>
    match p.consult s fun w => Store.load w key with
    | (a, s, p) => advance p s (next a)
  | .ask (.save key c) next =>
    match p.consult s fun w => Store.save w key c with
    | (a, s, p) => advance p s (next a)
  | .ask (.loadTally key) next =>
    match p.consult s fun w => Store.loadTally w key with
    | (a, s, p) => advance p s (next a)
  | .ask (.saveTally key t) next =>
    match p.consult s fun w => Store.saveTally w key t with
    | (a, s, p) => advance p s (next a)
  | .ask (.request r limit) next =>
    let (cue, script) := nextCue limit p.script
    let p := { p with script := script, notes := .requested s.second r :: p.notes }
    if cue.delay = 0 then
      match p.take s cue with
      | (s, p) => advance p s (next cue.answer)
    else (.answer (s.time + cue.delay) cue next, s, p)
  | .ask (.index d) next =>
    match p.hand (.indexed d.id) (Shelf.index · d) with
    | (a, p) => advance p s (next a)
  | .ask .flush next =>
    match p.hand .flushed Shelf.flush with
    | (a, p) => advance p s (next a)
  | .ask .close next =>
    match p.hand .closed Shelf.close with
    | (a, p) => advance p s (next a)

end Player

/-- A player and what it waits for. -/
structure Part (σ : Type) where
  course : Course σ
  player : Player
  wait : Player.Wait σ

namespace Part

variable {σ : Type}

def start (course : Course σ) (player : Player) (stage : σ) : Part σ :=
  ⟨course, player, .finished stage⟩

/-- When the part goes on; none at the end of its course. -/
def due? (p : Part σ) (s : Scene) : Option Nat :=
  match p.wait with
  | .finished stage => if (p.course stage).isSome then some s.time else none
  | .pause till _ => some ((s.cancelAt.map (min till)).getD till)
  | .answer till _ _ => some till

/-- Goes on with a part that is due. -/
def resume (p : Part σ) (s : Scene) : Scene × Part σ :=
  match p.wait with
  | .finished stage =>
    match p.course stage with
    | none => (s, p)
    | some program => go s p.player program
  | .pause _ next => go s p.player (next (¬ s.isCancelled))
  | .answer _ cue next =>
    match p.player.take s cue with
    | (s, player) => go s player (next cue.answer)
where
  go (s : Scene) (player : Player) (program : Program σ) : Scene × Part σ :=
    match player.advance s program with
    | (wait, s, player) => (s, { p with player := player, wait := wait })

def stage? (p : Part σ) : Option σ :=
  match p.wait with
  | .finished stage => some stage
  | _ => none

end Part

namespace Ensemble

variable {σ : Type}

/-- The first of the parts that go on the earliest, with its place in the list and the time. -/
def first? (s : Scene) : List (Nat × Part σ) → Option (Nat × Nat × Part σ)
  | [] => none
  | (place, p) :: r =>
    match p.due? s, first? s r with
    | some t, some (t', later) => if t ≤ t' then some (t, place, p) else some (t', later)
    | some t, none => some (t, place, p)
    | none, later => later

/--
Plays all parts up to the ends of their courses, at most so many times going on with one. The parts are
given in the order in which they began to wait, with the numbers by which they are known. A part that
need not wait goes on before all others.
-/
def play : Nat → Scene → List (Nat × Part σ) → Scene × List (Nat × Part σ)
  | 0, s, parts => (s, parts)
  | fuel + 1, s, parts =>
    match first? s parts with
    | none => (s, parts)
    | some (time, place, p) =>
      let others := parts.filter (·.1 ≠ place)
      match p.resume { s with time := max s.time time } with
      | (s, p) =>
        if p.stage?.isSome then play fuel s ((place, p) :: others)
        else play fuel s (others ++ [(place, p)])

end Ensemble

end Harvesting
