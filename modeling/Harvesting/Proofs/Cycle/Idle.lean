import Harvesting.Proofs.Cycle.Events
import Harvesting.Proofs.Store.Apart

/-!
# A cycle without a page

A cycle starts with the stored checkpoint. A store that cannot be read is left alone for a while and read
again, and nothing else is done until it can be read: a checkpoint that is there and cannot be understood
never passes for a source without one. If what was read leads to no request, nothing but questions was asked.

* `Archive.load_none_iff` — which contents of the disk are read as no checkpoint;
* `Effect.onlyAsks` — effects that change nothing;
* `Cycle.Waits` — what a cycle does as long as the store cannot be read;
* `Cycle.Begins`, `Cycle.begins_stage` — what it does before and behind the first reading that succeeds;
* `Cycle.reads_first` — the whole cycle.
-/

namespace Harvesting

/-- The effect asks for something and changes neither a document nor the sink nor the repository. -/
def Effect.onlyAsks : Effect → Bool
  | .cancelled | .pause _ | .clock | .load _ => true
  | _ => false

/-- The event is the reading of a checkpoint. -/
def Event.isLoad : Event → Bool
  | ⟨.load _, _⟩ => true
  | _ => false

namespace Surroundings

variable {σ : Type} [FaithfulStore σ]

/-- The shelf, the documents that are held, and what was requested. -/
def possessions (w : Surroundings σ) : Shelf × (String → Slot → Option Json) × List (Request × Page) :=
  (w.shelf, FaithfulStore.held w.store, w.exchanges)

variable {allowed : Request → Except SourceFault Page → Prop} {w w' : Surroundings σ}

theorem possessions_of_asks {e : Effect} {r : e.Reply} (he : e.onlyAsks = true) (h : Replies allowed w e r w') :
    w'.possessions = w.possessions := by
  obtain ⟨hlog, hdoes⟩ := h
  have hstill (hstore : FaithfulStore.held w'.store = FaithfulStore.held w.store) (hshelf : w'.shelf = w.shelf)
      (he : (⟨e, r⟩ : Event).exchange? = none) : w'.possessions = w.possessions := by
    rw [possessions, hshelf, hstore, exchanges_kept hlog he]
    rfl
  cases e with
  | cancelled => exact hstill (by rw [hdoes.1]) hdoes.2 rfl
  | pause n => exact hstill (by rw [hdoes.1]) hdoes.2 rfl
  | clock => exact hstill (by rw [hdoes.1]) hdoes.2 rfl
  | load key =>
      obtain ⟨hstore, hshelf⟩ := hdoes
      refine hstill ?_ hshelf rfl
      rcases hstore with hload | ⟨-, hsame⟩
      · exact FaithfulStore.held_load hload
      · rw [hsame]
  | _ => cases he

end Surroundings

/-! ## Stores that cannot be read -/

namespace Archive

variable {a : Archive} {key : String}

theorem load_snd (a : Archive) (key : String) : (Store.load a key).2 = a := by
  have hget : Store.get a key .checkpoint = ((Store.get a key .checkpoint).1, a) :=
    Prod.ext rfl (get_snd a key .checkpoint)
  rw [Store.load_of_get hget]

/-- Nothing at the place of the checkpoint is the only thing that is read as no checkpoint. -/
theorem load_none_iff : (Store.load a key).1 = .ok none ↔
    Key.isValid key = true ∧ Disk.exists? a.disk (a.path key .checkpoint .current) = .ok false := by
  by_cases hvalid : Key.isValid key = true
  · have hlook : Disk.look a.disk (a.path key .checkpoint .current) = a.there key .checkpoint .current := rfl
    rw [Store.load_of_get (get_eq hvalid), Disk.exists?_eq, hlook]
    cases a.there key .checkpoint .current with
    | error f => cases f <;> simp [answer, hvalid, Except.bind]
    | ok entry =>
      cases entry with
      | folder => simp [answer, Except.bind]
      | file b =>
          rw [answer]
          cases parse (a.pathText key .checkpoint .current) b with
          | error f => simp [Except.map, Except.bind]
          | ok doc =>
              -- a document that is there is a checkpoint or a fault
              cases hread : Checkpoint.ofDocument doc <;>
                simp [Except.map, Except.bind, Store.understood, Except.mapError, hread]
  · rw [Store.load_of_get (get_invalid hvalid)]
    simp [Except.bind, hvalid]

end Archive

namespace Cycle

variable {ω β : Type} {R : Answers ω} {s : CycleSettings} {st st' : Cycle × Report} {es log : List Event}

/-- What a cycle does as long as the store cannot be read: it waits each time, and nobody cancels it. -/
inductive Waits (s : CycleSettings) : List Event → Prop where
  | nil : Waits s []
  | again {es : List Event} {f : Store.Fault} : Waits s es →
      Waits s (es ++ [⟨.cancelled, false⟩, ⟨.load s.key, .error f⟩, ⟨.pause s.cooldown, true⟩])

/-- A reading that succeeds. -/
def reading (s : CycleSettings) (c : Option Checkpoint) (now : Instant) : List Event :=
  [⟨.cancelled, false⟩, ⟨.load s.key, .ok c⟩, ⟨.clock, now⟩]

/-- What a cycle did, up to a stage. The first reading that succeeds is the only one. -/
inductive Begins (s : CycleSettings) : Cycle × Report → List Event → Prop where
  | waiting {es : List Event} : Waits s es → Begins s start es
  | stopped {es : List Event} : Waits s es →
      Begins s (.ended, Report.empty.cancel) (es ++ [⟨.cancelled, true⟩])
  /-- The harvest is cancelled while the cycle waits for the store. -/
  | cut {es : List Event} {f : Store.Fault} : Waits s es → Begins s (.ended, Report.empty.cancel)
      (es ++ [⟨.cancelled, false⟩, ⟨.load s.key, .error f⟩, ⟨.pause s.cooldown, false⟩])
  | broken {es : List Event} {c : Option Checkpoint} {now : Instant} : Waits s es →
      s.planner.plan? c now = none → Begins s (.broken, .empty) (es ++ reading s c now)
  | idle {es : List Event} {c : Option Checkpoint} {now : Instant} : Waits s es →
      s.planner.plan? c now = some .wait →
      Begins s (.ended, { Report.empty with decision := some .wait }) (es ++ reading s c now)
  | busy {es rest : List Event} {c : Option Checkpoint} {now : Instant} {d : Decision} {st : Cycle × Report} :
      Waits s es → s.planner.plan? c now = some d → d ≠ .wait → st.2.decision = some d → st.1 ≠ .planning →
      (∀ ev ∈ rest, ev.isLoad = false) → Begins s st (es ++ reading s c now ++ rest)

theorem Waits.onlyAsks (h : Waits s es) : ∀ ev ∈ es, ev.effect.onlyAsks = true := by
  induction h with
  | nil => simp
  | again _ ih => simpa [or_imp, forall_and, Effect.onlyAsks] using ih

/-- A cycle that came to no request only asked. -/
theorem Begins.onlyAsks (h : Begins s st es) (hidle : ∀ d, st.2.decision = some d → d = .wait) :
    ∀ ev ∈ es, ev.effect.onlyAsks = true := by
  cases h with
  | waiting hwaits => exact hwaits.onlyAsks
  | stopped hwaits => simpa [or_imp, forall_and, Effect.onlyAsks] using hwaits.onlyAsks
  | cut hwaits => simpa [or_imp, forall_and, Effect.onlyAsks] using hwaits.onlyAsks
  | broken hwaits _ => simpa [reading, or_imp, forall_and, Effect.onlyAsks] using hwaits.onlyAsks
  | idle hwaits _ => simpa [reading, or_imp, forall_and, Effect.onlyAsks] using hwaits.onlyAsks
  | busy _ _ hactive hdecision _ _ => exact absurd (hidle _ hdecision) hactive

/-! ## The stages -/

theorem request?_eq_none {d : Decision} {template : Request} :
    d.request? template = none ↔ d = .wait := by
  cases d <;> simp [Decision.request?]

theorem Try.Sound.isLoad {t : Try} (h : t.Sound s) : ∀ ev ∈ t.events s, ev.isLoad = false := by
  have hhanded : ∀ ev ∈ t.handed, ev.isLoad = false := by
    intro ev hmem
    obtain ⟨d, taken, rfl⟩ := h.settled.indexes ev hmem
    rfl
  cases hput : t.putOff <;> simpa [Try.events, hput, or_imp, forall_and, Event.isLoad] using hhanded

theorem Handled.isLoad {h : Handled} (hsound : h.toTry.Sound s) : ∀ ev ∈ h.events s, ev.isLoad = false := by
  simpa [Handled.events, or_imp, forall_and, Event.isLoad] using hsound.isLoad

theorem Closes.isLoad (h : Closes s es) : ∀ ev ∈ es, ev.isLoad = false := by
  obtain ⟨now, tally, written, rfl⟩ := h
  simp [Event.isLoad]

/-- No page reads the checkpoint, and the stage of a page is not followed by planning. -/
theorem Visits.unread {tally : Tally} {q : Request} {report : Report} (h : Visits s tally q report es st) :
    (∀ ev ∈ es, ev.isLoad = false) ∧ st.1 ≠ .planning := by
  cases h with
  | stopped hcloses => exact ⟨by simpa [Event.isLoad] using hcloses.isLoad, nofun⟩
  | cancelled _ _ hcloses => exact ⟨by simpa [Event.isLoad] using hcloses.isLoad, nofun⟩
  | last _ hsound _ hcloses =>
      refine ⟨?_, nofun⟩
      intro ev hmem
      rcases List.mem_append.1 hmem with hmem | hmem
      · exact Handled.isLoad hsound ev hmem
      · exact hcloses.isLoad ev hmem
  | next _ hsound _ => exact ⟨Handled.isLoad hsound, nofun⟩

theorem begins_planning (hwaits : Waits s log) (h : Planning s .empty es st) : Begins s st (log ++ es) := by
  cases h with
  | stopped => exact .stopped hwaits
  | again => exact .waiting hwaits.again
  | cut => exact .cut hwaits
  | broken hplan => exact .broken hwaits hplan
  | idle hplan hrequest =>
      obtain rfl := request?_eq_none.1 hrequest
      exact .idle hwaits hplan
  | @paging c now begun d q kept tally written hplan hrequest =>
      have hactive : d ≠ .wait := by
        intro hwait
        cases hrequest.symm.trans (request?_eq_none.2 hwait)
      have hbusy : Begins s (.paging tally q, { Report.empty with decision := some d }) (log ++ reading s c now ++
          [⟨.loadTally s.key, kept⟩, ⟨.clock, begun⟩, ⟨.saveTally s.key tally, written⟩]) :=
        .busy hwaits hplan hactive rfl nofun (by simp [Event.isLoad])
      rwa [List.append_assoc] at hbusy

theorem begins_stage {p : Program (Cycle × Report)} (h : Begins s st log) (hp : course s st = some p)
    (hdoes : p.Does es st') : Begins s st' (log ++ es) := by
  cases h with
  | waiting hwaits =>
      cases hp
      exact begins_planning hwaits (does_planning hdoes)
  | stopped _ => cases hp
  | cut _ => cases hp
  | broken _ _ => cases hp
  | idle _ _ => cases hp
  | busy hwaits hplan hactive hdecision hstage hrest =>
      rcases st with ⟨_ | ⟨tally, q⟩ | _ | _, report⟩
      · exact absurd rfl hstage
      · cases hp
        obtain ⟨hloads, hstage'⟩ := (does_visits hdoes).unread
        rw [List.append_assoc]
        refine .busy hwaits hplan hactive ((does_page hdoes).2.trans hdecision) hstage' ?_
        intro ev hmem
        rcases List.mem_append.1 hmem with hmem | hmem
        · exact hrest ev hmem
        · exact hloads ev hmem
      · cases hp
      · cases hp

/--
A cycle waits until the store can be read, and until then it does nothing else. The first reading that
succeeds is the only one, and the decision is what is planned from the checkpoint that it gives. If there is
no decision or nothing to do, then only questions were asked, and whatever these leave as it is, `view`, is the
same at the end. A store on disk is one of those: it is not changed by being read. It gives no checkpoint only if
there is nothing at the place of the checkpoint, whatever else may be there.
-/
theorem reads_first {view : ω → β} {w w' : ω}
    (hview : ∀ w e r w', e.onlyAsks = true → R w e r w' → view w' = view w)
    (hrun : (course s).Leads R start w st w') :
    (∃ es, Trace R w es w' ∧ Begins s st es ∧ ((∀ d, st.2.decision = some d → d = .wait) →
      (∀ ev ∈ es, ev.effect.onlyAsks = true) ∧ view w' = view w)) ∧
    ∀ (a : Archive) (key : String), (Store.load a key).2 = a ∧ ((Store.load a key).1 = .ok none ↔
      Key.isValid key = true ∧ Disk.exists? a.disk (a.path key .checkpoint .current) = .ok false) := by
  refine ⟨?_, fun a key => ⟨a.load_snd key, Archive.load_none_iff⟩⟩
  obtain ⟨es, htrace, hdoes⟩ := hrun.trace
  have hbegins : Begins s st ([] ++ es) :=
    hdoes.keeps (fun _ _ _ _ _ h hp hdoes => begins_stage h hp hdoes) (.waiting .nil)
  refine ⟨es, htrace, hbegins, fun hidle => ?_⟩
  have hasks : ∀ ev ∈ es, ev.effect.onlyAsks = true := hbegins.onlyAsks hidle
  exact ⟨hasks, htrace.keeps fun w e r w' hmem => hview w e r w' (hasks _ hmem)⟩

/-- A source that was harvested for ten seconds, in a store that cannot be read at first. -/
def harvested : Surroundings MemoryStore :=
  let checkpoint : Checkpoint := ⟨none, some ⟨0, 0⟩, some ⟨10, 0⟩, none, 200⟩
  ⟨⟨[(("source", .checkpoint), checkpoint.toDocument)], [], 1⟩, .empty, []⟩

/-- Five seconds later, where nothing else fails. -/
def early (w : Surroundings MemoryStore) (e : Effect) : e.Reply × Surroundings MemoryStore :=
  Surroundings.calm (fun q => .ok (Surroundings.samplePage q.token)) ⟨15, 0⟩ w e

theorem reads_first_early :
    ∃ st w es, (course Surroundings.sample).Leads (Surroundings.Replies fun _ _ => True) start harvested st w ∧
      Trace (Surroundings.Replies fun _ _ => True) harvested es w ∧ Begins Surroundings.sample st es ∧
      st.2.decision = some .wait ∧ w.possessions = harvested.possessions := by
  have hreplies (w : Surroundings MemoryStore) (e : Effect) :
      Surroundings.Replies (fun _ _ => True) w e (early w e).1 (early w e).2 :=
    Surroundings.replies_calm (fun _ => trivial) ⟨15, 0⟩ w e
  have hrun := Course.leads_follow (c := course Surroundings.sample) hreplies 2 start harvested
  obtain ⟨⟨es, htrace, hbegins, hidle⟩, -⟩ :=
    reads_first (fun _ _ _ _ he h => Surroundings.possessions_of_asks he h) hrun
  have hwait : ((course Surroundings.sample).follow early 2 start harvested).1.2.decision = some .wait := by
    decide +kernel
  refine ⟨_, _, es, hrun, htrace, hbegins, hwait, (hidle ?_).2⟩
  intro d hd
  cases hwait.symm.trans hd
  rfl

end Cycle

end Harvesting
