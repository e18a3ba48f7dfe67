import Harvesting.Proofs.Cycle.Own
import Harvesting.Proofs.Cycle.Surroundings
import Harvesting.Proofs.Settings.Keys
import Harvesting.Proofs.Store.Apart
import Mathlib.Data.List.Nodup
import Mathlib.Logic.Function.Basic

/-!
# Sources side by side

The sources of a deployment share a store and take turns in any order. Each has a sink and a client of its
own; its repository, its clock and the order to stop may answer it in any way.

* `Party`, `Seat` — a source with all that answers it but the store, and how far it got;
* `Party.step` — the next effect of a source, or its next stage; `Party.alone` — many steps of one source;
* `together` — the steps of all sources, in the order of a schedule;
* `Party.Follows` — a source among others is where it would be alone; `Party.Follows.step`,
  `Party.Follows.step_elsewhere` — and it stays there;
* `Deployment.sources_apart` — no source can tell whether there are others.
-/

namespace Harvesting

/-- A source with all that answers it but the store. -/
structure Party (σ : Type) where
  deployment : Deployment
  /-- What the repository, the clocks and the order to stop answer, after all that was asked before. -/
  oracle : List Event → (e : Effect) → e.Reply
  /-- The server behind the sink. -/
  serve : σ → Call → Reply × σ
  server : σ

/-- How far a source got. -/
structure Seat (σ : Type) where
  /-- What remains of the present stage. -/
  rest : Program (Runner × Summary)
  outlet : Outlet
  server : σ
  /-- All that was asked and answered, requests and documents among it. -/
  log : List Event
  /-- The stages that were begun, with the reports of the cycles and their sums. -/
  stages : List (Runner × Summary)

namespace Party

variable {σ : Type}

def key (p : Party σ) : String := p.deployment.runner.cycle.key

def start (p : Party σ) : Seat σ := ⟨.done (Runner.start p.deployment.runner), p.deployment.outlet, p.server, [], []⟩

/-- The answer to an effect, with the store, the sink and its server after it. -/
def answer (p : Party σ) (b : Backend) (seat : Seat σ) : (e : Effect) → e.Reply × Backend × Outlet × σ
  | .load key =>
    match Store.load b key with
    | (r, b) => (r, b, seat.outlet, seat.server)
  | .save key c =>
    match Store.save b key c with
    | (r, b) => (r, b, seat.outlet, seat.server)
  | .loadTally key =>
    match Store.loadTally b key with
    | (r, b) => (r, b, seat.outlet, seat.server)
  | .saveTally key t =>
    match Store.saveTally b key t with
    | (r, b) => (r, b, seat.outlet, seat.server)
  | .index d =>
    match seat.outlet.index p.serve seat.server d with
    | (r, sink) => (r, b, sink)
  | .flush =>
    match seat.outlet.flush p.serve seat.server with
    | (r, sink) => (r, b, sink)
  | .close =>
    match seat.outlet.close p.serve seat.server with
    | (r, sink) => (r, b, sink)
  | .cancelled => (p.oracle seat.log .cancelled, b, seat.outlet, seat.server)
  | .pause length => (p.oracle seat.log (.pause length), b, seat.outlet, seat.server)
  | .clock => (p.oracle seat.log .clock, b, seat.outlet, seat.server)
  | .wallClock => (p.oracle seat.log .wallClock, b, seat.outlet, seat.server)
  | .request r limit => (p.oracle seat.log (.request r limit), b, seat.outlet, seat.server)

/-- The next effect of the source, or its next stage; nothing once it has stopped. -/
def step (p : Party σ) (b : Backend) (seat : Seat σ) : Backend × Seat σ :=
  match seat.rest with
  | .done stage =>
    match Runner.course p.deployment.runner stage with
    | none => (b, seat)
    | some program => (b, { seat with rest := program, stages := seat.stages ++ [stage] })
  | .ask e next =>
    match p.answer b seat e with
    | (r, b, outlet, server) => (b, ⟨next r, outlet, server, seat.log ++ [⟨e, r⟩], seat.stages⟩)

/-- So many steps of one source. -/
def alone (p : Party σ) : Nat → Backend → Seat σ → Backend × Seat σ
  | 0, b, seat => (b, seat)
  | n + 1, b, seat =>
    match p.step b seat with
    | (b, seat) => p.alone n b seat

end Party

/-- The steps of all sources, in the order of a schedule. -/
def together {ι σ : Type} [DecidableEq ι] (parties : ι → Party σ) :
    List ι → Backend → (ι → Seat σ) → Backend × (ι → Seat σ)
  | [], b, seats => (b, seats)
  | i :: schedule, b, seats =>
    match (parties i).step b (seats i) with
    | (b, seat) => together parties schedule b (Function.update seats i seat)

/-- The store answered that a text is no key. -/
def Event.RefusesKey : Event → Prop
  | ⟨.load _, r⟩ => Store.RefusesKey r
  | ⟨.save _ _, r⟩ => Store.RefusesKey r
  | ⟨.loadTally _, r⟩ => Store.RefusesKey r
  | ⟨.saveTally _ _, r⟩ => Store.RefusesKey r
  | _ => False

/-! ## One step -/

namespace Party

variable {σ : Type} {p q : Party σ} {b b' : Backend} {seat : Seat σ} {e : Effect} {key : String}

/-- What a source is answered is the same in stores that hold the same documents of it. -/
theorem answer_alike (p : Party σ) (seat : Seat σ) (h : b.Alike key b') (he : e.Concerns key) :
    (p.answer b' seat e).1 = (p.answer b seat e).1 ∧ (p.answer b' seat e).2.2 = (p.answer b seat e).2.2 ∧
      Backend.Alike key (p.answer b seat e).2.1 (p.answer b' seat e).2.1 ∧
      ¬ Event.RefusesKey ⟨e, (p.answer b seat e).1⟩ := by
  cases e with
  | load k =>
      cases he
      obtain ⟨hkept, hkey, hsame⟩ := h.serves.load
      refine ⟨hsame b' h, rfl, ?_, hkey⟩
      show Backend.Alike key (Store.load b key).2 (Store.load b' key).2
      rw [hkept, h.serves'.load.1]
      exact h
  | loadTally k =>
      cases he
      obtain ⟨hkept, hkey, hsame⟩ := h.serves.loadTally
      refine ⟨hsame b' h, rfl, ?_, hkey⟩
      show Backend.Alike key (Store.loadTally b key).2 (Store.loadTally b' key).2
      rw [hkept, h.serves'.loadTally.1]
      exact h
  | save k c =>
      cases he
      obtain ⟨hsame, halike⟩ := h.put .checkpoint c.toDocument
      exact ⟨hsame, rfl, halike, h.serves.not_refusesKey_put .checkpoint c.toDocument⟩
  | saveTally k t =>
      cases he
      obtain ⟨hsame, halike⟩ := h.put .tally t.toDocument
      exact ⟨hsame, rfl, halike, h.serves.not_refusesKey_put .tally t.toDocument⟩
  | _ => exact ⟨rfl, rfl, h, id⟩

/-- What one source is answered does not change the documents of another. -/
theorem answer_elsewhere (q : Party σ) (seat : Seat σ) {other : String} (h : b.Alike key b')
    (hother : b.Serves other) (hne : key ≠ other) (he : e.Concerns other) :
    Backend.Alike key (q.answer b seat e).2.1 b' := by
  cases e with
  | load k =>
      cases he
      show Backend.Alike key (Store.load b other).2 b'
      rw [hother.load.1]
      exact h
  | loadTally k =>
      cases he
      show Backend.Alike key (Store.loadTally b other).2 b'
      rw [hother.loadTally.1]
      exact h
  | save k c =>
      cases he
      exact h.put_elsewhere hother hne .checkpoint c.toDocument
  | saveTally k t =>
      cases he
      exact h.put_elsewhere hother hne .tally t.toDocument
  | _ => exact h

/--
Among others, the source is where it is alone: it got as far, and the stores hold the same documents of it.
It asks for these only, and was never told that its key is none.
-/
structure Follows (p : Party σ) (b : Backend) (seat : Seat σ) (b' : Backend) (seat' : Seat σ) : Prop where
  store : b.Alike p.key b'
  same : seat = seat'
  asks : seat.rest.Asks (Effect.Concerns p.key)
  keys : ∀ ev ∈ seat.log, ¬ ev.RefusesKey

theorem follows_start (p : Party σ) (h : b.Serves p.key) : p.Follows b p.start b p.start where
  store := h.alike
  same := rfl
  asks := trivial
  keys _ hev := absurd hev List.not_mem_nil

theorem asks_next {next : e.Reply → Program (Runner × Summary)} (h : seat.rest.Asks (Effect.Concerns key))
    (hrest : seat.rest = .ask e next) : e.Concerns key ∧ ∀ r, (next r).Asks (Effect.Concerns key) := by
  rw [hrest] at h
  exact h

theorem step_of_done {stage : Runner × Summary} (hrest : seat.rest = .done stage) :
    p.step b seat = (b, match Runner.course p.deployment.runner stage with
      | none => seat
      | some program => { seat with rest := program, stages := seat.stages ++ [stage] }) := by
  rw [step, hrest]
  simp only
  split <;> rfl

theorem step_of_ask {next : e.Reply → Program (Runner × Summary)} (hrest : seat.rest = .ask e next) :
    p.step b seat = ((p.answer b seat e).2.1, ⟨next (p.answer b seat e).1, (p.answer b seat e).2.2.1,
      (p.answer b seat e).2.2.2, seat.log ++ [⟨e, (p.answer b seat e).1⟩], seat.stages⟩) := by
  rw [step, hrest]

/-- A step of the source, among others and alone. -/
theorem Follows.step {seat' : Seat σ} (h : p.Follows b seat b' seat') :
    p.Follows (p.step b seat).1 (p.step b seat).2 (p.step b' seat').1 (p.step b' seat').2 := by
  obtain ⟨hstore, rfl, hasks, hkeys⟩ := h
  cases hrest : seat.rest with
  | done stage =>
      rw [step_of_done hrest, step_of_done hrest]
      cases hstage : Runner.course p.deployment.runner stage with
      | none => exact ⟨hstore, rfl, hasks, hkeys⟩
      | some program => exact ⟨hstore, rfl, Runner.asks_course _ hstage, hkeys⟩
  | ask e next =>
      obtain ⟨he, hnext⟩ := asks_next hasks hrest
      obtain ⟨hreply, hsink, halike, hkey⟩ := p.answer_alike seat hstore he
      rw [step_of_ask hrest, step_of_ask hrest, hreply, hsink]
      refine ⟨halike, rfl, hnext _, ?_⟩
      intro ev hev
      rcases List.mem_append.1 hev with hev | hev
      · exact hkeys ev hev
      · cases List.mem_singleton.1 hev
        exact hkey

/-- A step of another source. -/
theorem Follows.step_elsewhere {seat' other : Seat σ} (h : p.Follows b seat b' seat') (hother : b.Serves q.key)
    (hasks : other.rest.Asks (Effect.Concerns q.key)) (hne : p.key ≠ q.key) :
    p.Follows (q.step b other).1 seat b' seat' := by
  refine ⟨?_, h.same, h.asks, h.keys⟩
  cases hrest : other.rest with
  | done stage =>
      rw [step_of_done hrest]
      exact h.store
  | ask e next =>
      rw [step_of_ask hrest]
      exact q.answer_elsewhere other h.store hother hne (asks_next hasks hrest).1

end Party

/-! ## Many steps -/

section

variable {ι σ : Type} [DecidableEq ι] {parties : ι → Party σ} {seats : ι → Seat σ} {b : Backend}

/-- After the steps of a schedule every source is where its own steps lead it. -/
theorem follows_together (hkeys : ∀ i j, i ≠ j → (parties i).key ≠ (parties j).key) (schedule : List ι)
    {stores : ι → Backend} {lonely : ι → Seat σ}
    (h : ∀ i, (parties i).Follows b (seats i) (stores i) (lonely i)) (i : ι) :
    (parties i).Follows (together parties schedule b seats).1 ((together parties schedule b seats).2 i)
      ((parties i).alone (schedule.count i) (stores i) (lonely i)).1
      ((parties i).alone (schedule.count i) (stores i) (lonely i)).2 := by
  induction schedule generalizing b seats stores lonely with
  | nil => exact h i
  | cons j schedule ih =>
      -- alone, only the source whose turn it is makes a step
      let stores' := Function.update stores j ((parties j).step (stores j) (lonely j)).1
      let lonely' := Function.update lonely j ((parties j).step (stores j) (lonely j)).2
      have hnext : ∀ i, (parties i).Follows ((parties j).step b (seats j)).1
          (Function.update seats j ((parties j).step b (seats j)).2 i) (stores' i) (lonely' i) := by
        intro i
        by_cases hij : i = j
        · subst hij
          simp only [stores', lonely', Function.update_self]
          exact (h i).step
        · simp only [stores', lonely', Function.update_of_ne hij]
          exact (h i).step_elsewhere (h j).store.serves (h j).asks (hkeys i j hij)
      have hrest := ih hnext
      by_cases hij : i = j
      · subst hij
        simp only [stores', lonely', Function.update_self] at hrest
        rw [List.count_cons_self]
        exact hrest
      · simp only [stores', lonely', Function.update_of_ne hij] at hrest
        rw [List.count_cons_of_ne (Ne.symm hij)]
        exact hrest

end

/--
No source of accepted settings can tell whether there are others: after any schedule it has asked and was
answered the same, has the same in its sink, made the same reports and finds the same in the store as if it
had made its steps alone. The store, without faults of its own, never takes the key of a source for none.
-/
theorem Deployment.sources_apart {σ : Type} {s : HarvestSettings} {name : Option String} {o : RunOptions}
    {processors : Nat} {parties : List (Party σ)} {b : Backend} (hcheck : s.check = .ok ())
    (hall : all s name o processors = .ok (parties.map (·.deployment))) (hstore : ∀ p ∈ parties, b.Faultless p.key)
    (schedule : List (Fin parties.length)) (i : Fin parties.length) :
    let shared := together parties.get schedule b fun j => (parties.get j).start
    let lonely := (parties.get i).alone (schedule.count i) b (parties.get i).start
    shared.2 i = lonely.2 ∧
    (∀ slot, (Store.get shared.1 (parties.get i).key slot).1 = (Store.get lonely.1 (parties.get i).key slot).1) ∧
    ∀ ev ∈ (shared.2 i).log, ¬ ev.RefusesKey := by
  obtain ⟨hnodup, hvalid⟩ := keys_of_all hcheck hall
  have hserves (j : Fin parties.length) : b.Serves (parties.get j).key := by
    have hmem := List.get_mem parties j
    exact (hstore _ hmem).serves (hvalid _ (List.mem_map_of_mem hmem))
  have hkeys (j k : Fin parties.length) (hne : j ≠ k) : (parties.get j).key ≠ (parties.get k).key := by
    intro heq
    rw [List.map_map] at hnodup
    have hparty := List.inj_on_of_nodup_map hnodup (List.get_mem parties j) (List.get_mem parties k) heq
    exact hne (List.nodup_iff_injective_get.1 hnodup.of_map hparty)
  intro shared lonely
  have hfollows := follows_together hkeys schedule (fun j => (parties.get j).follows_start (hserves j)) i
  exact ⟨hfollows.same, fun slot => (hfollows.store.get slot).symm, hfollows.keys⟩

/-! ## Two sources -/

namespace Party

/-- Two sources of one repository. -/
def pairSettings : HarvestSettings :=
  { HarvestSettings.default with sources :=
      [{ SourceSettings.default with name := some "first" },
        { SourceSettings.default with name := some "second", set := some "physics" }] }

/-- The repository has nothing to say, and no time passes. -/
def quiet (_ : List Event) : (e : Effect) → e.Reply
  | .cancelled => false
  | .pause _ => true
  | .clock => ⟨0, 0⟩
  | .wallClock => ⟨0, 0⟩
  | .load _ => .ok none
  | .save _ _ => .ok ()
  | .loadTally _ => .ok Tally.empty
  | .saveTally _ _ => .ok ()
  | .request _ _ => .ok ⟨200, [], none, none, none⟩
  | .index _ => .ok ()
  | .flush => .ok ()
  | .close => .ok ()

/-- Both sources, each for one cycle, with documents kept in memory. -/
def pair : List (Party Unit) :=
  ((Deployment.all pairSettings none ⟨true, true⟩ 1).toOption.getD []).map
    fun d => ⟨d, quiet, fun _ _ => (.silent, ()), ()⟩

theorem all_pair : Deployment.all pairSettings none ⟨true, true⟩ 1 = .ok (pair.map (·.deployment)) := by
  have hsome : (Deployment.all pairSettings none ⟨true, true⟩ 1).toOption.isSome = true := by decide +kernel
  rw [pair, List.map_map]
  cases hall : Deployment.all pairSettings none ⟨true, true⟩ 1 with
  | error f =>
      rw [hall] at hsome
      cases hsome
  | ok ds =>
      show Except.ok ds = Except.ok (ds.map id)
      rw [List.map_id]

theorem length_pair : pair.length = 2 := by decide +kernel

theorem keys_pair : pair.map key = ["first", "second"] := by decide +kernel

/-- On an empty disk both can be stored. -/
theorem faultless_pair {p : Party Unit} (hp : p ∈ pair) : (Backend.archive .blank).Faultless p.key := by
  have hkey : p.key ∈ pair.map key := List.mem_map_of_mem hp
  rw [keys_pair] at hkey
  have hready (slot : Slot) : Archive.blank.Ready p.key slot := by
    rcases List.mem_pair.1 hkey with heq | heq <;>
    · rw [heq]
      exact Archive.blank_empty.ready (by decide +kernel) (by decide +kernel)
  exact ⟨(hready .checkpoint).short, fun slot => (hready slot).free⟩

/-- Both sources in turn, for so many rounds. -/
def inTurn (rounds : Nat) : List (Fin pair.length) :=
  (List.replicate rounds [⟨0, by rw [length_pair]; decide⟩, ⟨1, by rw [length_pair]; decide⟩]).flatten

/-- After eighteen rounds either source has gone through its cycle and has closed its sink. -/
theorem sources_apart_pair : pairSettings.check = .ok () ∧
    Deployment.all pairSettings none ⟨true, true⟩ 1 = .ok (pair.map (·.deployment)) ∧
    let shared := together pair.get (inTurn 18) (.archive .blank) fun j => (pair.get j).start
    ∀ i, (shared.2 i).log.length = 13 ∧ (shared.2 i).stages.length = 5 ∧
      shared.2 i = ((pair.get i).alone 18 (.archive .blank) (pair.get i).start).2 := by
  have hcheck : pairSettings.check = .ok () := by decide +kernel
  refine ⟨hcheck, all_pair, ?_⟩
  intro shared i
  have hends : ∀ i, (shared.2 i).log.length = 13 ∧ (shared.2 i).stages.length = 5 := by decide +kernel
  have hcount : ∀ i, (inTurn 18).count i = 18 := by decide +kernel
  have hsame := (Deployment.sources_apart hcheck all_pair (fun p hp => faultless_pair hp) (inTurn 18) i).1
  rw [hcount i] at hsame
  exact ⟨(hends i).1, (hends i).2, hsame⟩

end Party

end Harvesting
