import Harvesting.Proofs.Cycle.NoLoss
import Harvesting.Proofs.Progress.Tally
import Harvesting.Proofs.Store.Careful

/-!
# Cycles with a store on disk

What a cycle stores is read back as it was, as long as its statuses have 32 bits and its counts 64. A run with a
store on disk is then one with a faithful store, so what is said of cycles with any faithful store is true of it.

* `Effect.InWords` — the sizes of what is stored;
* `Surroundings.careful` — the same surroundings, with the store as a faithful one;
* `Surroundings.leads_careful`, `Surroundings.reaches_careful` — runs of any course, through stages and
  interrupted;
* `Cycle.harvested_on_disk` — a clean checkpoint that is loaded from disk tells of pages that are on the shelf.
-/

namespace Harvesting

/-- A status that is stored has 32 bits, and counts that are stored have 64. -/
def Effect.InWords : Effect → Prop
  | .save _ c => Checkpoint.Storable c.status
  | .saveTally _ t => t.counter ≤ Json.maxWhole ∧ t.cycles ≤ Json.maxWhole
  | _ => True

instance : (e : Effect) → Decidable e.InWords
  | .save _ c => inferInstanceAs (Decidable (_ ≤ c.status ∧ c.status ≤ _))
  | .saveTally _ t => inferInstanceAs (Decidable (t.counter ≤ _ ∧ t.cycles ≤ _))
  | .cancelled | .pause _ | .clock | .wallClock | .load _ | .loadTally _ | .request _ _ | .index _ | .flush
  | .close => inferInstanceAs (Decidable True)

namespace CarefulArchive

variable {a : Archive} {key : String}

theorem load_eq (a : Archive) (key : String) :
    Store.load (⟨a⟩ : CarefulArchive) key = ofAnswer (Store.load a key) := by
  have hget : Store.get (⟨a⟩ : CarefulArchive) key .checkpoint = ofAnswer (Store.get a key .checkpoint) := rfl
  rw [Store.load, Store.load, hget]
  rcases Store.get a key .checkpoint with ⟨_ | _ | doc, a'⟩ <;> rfl

theorem loadTally_eq (a : Archive) (key : String) :
    Store.loadTally (⟨a⟩ : CarefulArchive) key = ofAnswer (Store.loadTally a key) := by
  have hget : Store.get (⟨a⟩ : CarefulArchive) key .tally = ofAnswer (Store.get a key .tally) := rfl
  rw [Store.loadTally, Store.loadTally, hget]
  rcases Store.get a key .tally with ⟨_ | _ | doc, a'⟩ <;> rfl

theorem save_eq (a : Archive) (key : String) {c : Checkpoint} (h : Checkpoint.Storable c.status) :
    Store.save (⟨a⟩ : CarefulArchive) key c = ofAnswer (Store.save a key c) :=
  put_of_returns ⟨a⟩ key .checkpoint (Checkpoint.plain_toDocument h).returns

theorem saveTally_eq (a : Archive) (key : String) {t : Tally} (hcounter : t.counter ≤ Json.maxWhole)
    (hcycles : t.cycles ≤ Json.maxWhole) :
    Store.saveTally (⟨a⟩ : CarefulArchive) key t = ofAnswer (Store.saveTally a key t) :=
  put_of_returns ⟨a⟩ key .tally (Tally.plain_toDocument hcounter hcycles).returns

end CarefulArchive

/-! ## Runs -/

namespace Surroundings

open CarefulArchive (ofAnswer load_eq loadTally_eq save_eq saveTally_eq)

variable {allowed : Request → Except SourceFault Page → Prop} {w w' : Surroundings Archive}

/-- The same surroundings, to whose store only documents are given that are read back. -/
def careful (w : Surroundings Archive) : Surroundings CarefulArchive := ⟨⟨w.store⟩, w.shelf, w.log⟩

theorem tries_careful {α : Type} {work : Archive → Store.Answer Archive α}
    {work' : CarefulArchive → Store.Answer CarefulArchive α} {a a' : Archive} {r : Except Store.Fault α}
    (hwork : work' ⟨a⟩ = ofAnswer (work a)) (h : Tries work a r a') : Tries work' ⟨a⟩ r ⟨a'⟩ := by
  rcases h with h | ⟨hf, rfl⟩
  · refine .inl ?_
    rw [hwork, h]
    rfl
  · exact .inr ⟨hf, rfl⟩

/-- What the store on disk answers, it answers as a faithful one. -/
theorem replies_careful {e : Effect} {r : e.Reply} (he : e.InWords) (h : Replies allowed w e r w') :
    Replies allowed w.careful e r w'.careful := by
  obtain ⟨hlog, hdoes⟩ := h
  refine ⟨hlog, ?_⟩
  have hstore (hsame : w'.store = w.store) : w'.careful.store = w.careful.store :=
    congrArg CarefulArchive.mk hsame
  cases e with
  | load key => exact ⟨tries_careful (load_eq w.store key) hdoes.1, hdoes.2⟩
  | save key c => exact ⟨tries_careful (save_eq w.store key he) hdoes.1, hdoes.2⟩
  | loadTally key => exact ⟨tries_careful (loadTally_eq w.store key) hdoes.1, hdoes.2⟩
  | saveTally key t => exact ⟨tries_careful (saveTally_eq w.store key he.1 he.2) hdoes.1, hdoes.2⟩
  | request q limit => exact ⟨hdoes.1, hstore hdoes.2.1, hdoes.2.2⟩
  | index _ | flush | close => exact ⟨hdoes.1, hstore hdoes.2⟩
  | cancelled | pause _ | clock | wallClock => exact ⟨hstore hdoes.1, hdoes.2⟩

section

variable {σ : Type} [Store σ] {v v' : Surroundings σ}

theorem prefix_of_replies {e : Effect} {r : e.Reply} (h : Replies allowed v e r v') : v.log <+: v'.log :=
  ⟨_, h.1.symm⟩

theorem prefix_of_ends {α : Type} {p : Program α} {a : α} (h : p.Ends (Replies allowed) v a v') :
    v.log <+: v'.log := by
  induction h with
  | done a v => exact List.prefix_refl _
  | ask hr _ ih => exact (prefix_of_replies hr).trans ih

theorem prefix_of_leads {τ : Type} {c : Course τ} {s s' : τ} (h : c.Leads (Replies allowed) s v s' v') :
    v.log <+: v'.log := by
  induction h with
  | refl s v => exact List.prefix_refl _
  | stage _ hend _ ih => exact (prefix_of_ends hend).trans ih

end

/-- What is true of the whole history is true of the effect that it begins with. -/
theorem inWords_of_replies {e : Effect} {r : e.Reply} {w'' : Surroundings Archive}
    (hwords : ∀ ev ∈ w''.log, ev.effect.InWords) (hr : Replies allowed w e r w') (hlater : w'.log <+: w''.log) :
    e.InWords := by
  have hmem : ⟨e, r⟩ ∈ w'.log := by
    rw [hr.1]
    exact List.mem_concat_self
  exact hwords _ (hlater.subset hmem)

theorem ends_careful {α : Type} {p : Program α} {a : α} (h : p.Ends (Replies allowed) w a w')
    (hwords : ∀ ev ∈ w'.log, ev.effect.InWords) : p.Ends (Replies allowed) w.careful a w'.careful := by
  induction h with
  | done a w => exact .done a w.careful
  | ask hr hend ih =>
      exact .ask (replies_careful (inWords_of_replies hwords hr (prefix_of_ends hend)) hr) (ih hwords)

/-- A run through stages with a store on disk is one with a faithful store. -/
theorem leads_careful {τ : Type} {c : Course τ} {s s' : τ} (h : c.Leads (Replies allowed) s w s' w')
    (hwords : ∀ ev ∈ w'.log, ev.effect.InWords) : c.Leads (Replies allowed) s w.careful s' w'.careful := by
  induction h with
  | refl s w => exact .refl s w.careful
  | stage hp hend hrest ih =>
      refine .stage hp (ends_careful hend ?_) (ih hwords)
      intro ev hev
      exact hwords ev ((prefix_of_leads hrest).subset hev)

/-- So is a run that is interrupted, and each later one. -/
theorem reaches_careful {τ : Type} {c : Course τ} {first : τ} {w₀ : Surroundings Archive} {p : Program τ}
    (h : c.Reaches (Replies allowed) Crash first w₀ p w) (hwords : ∀ ev ∈ w.log, ev.effect.InWords) :
    c.Reaches (Replies allowed) Crash first w₀.careful p w.careful := by
  induction h with
  | start => exact .start
  | answer _ hr ih =>
      refine (ih ?_).answer (replies_careful (inWords_of_replies hwords hr (List.prefix_refl _)) hr)
      intro ev hev
      exact hwords ev ((prefix_of_replies hr).subset hev)
  | stage _ hp ih => exact (ih hwords).stage hp
  | again _ hs ih => exact (ih hwords).again hs
  | crash _ hcrash ih =>
      subst hcrash
      exact (ih hwords).crash rfl

end Surroundings

/-! ## A checkpoint that is loaded from disk -/

namespace Cycle

open Surroundings

variable {s : CycleSettings}

/--
Where nothing was stored before, a clean checkpoint that is loaded from disk tells of a chain of pages that were
given and are on the shelf, wherever the cycles were interrupted.
-/
theorem harvested_on_disk (hwindow : s.planner.window.Whole) {a : Archive} {shelf : Shelf}
    (hempty : a.held s.key .checkpoint = none) {p : Program (Cycle × Report)} {w : Surroundings Archive}
    (hreach : (course s).Reaches (Replies anything) Crash start ⟨a, shelf, []⟩ p w)
    (hwords : ∀ ev ∈ w.log, ev.effect.InWords) {c : Checkpoint}
    (hload : (Store.load w.store s.key).1 = .ok (some c)) (hclean : c.isClean = true) :
    Harvested s w c.window c.token := by
  have hstart : Sound s (careful ⟨a, shelf, []⟩) := by
    intro doc hdoc
    cases hempty.symm.trans hdoc
  have hsound := (reaches_careful hreach hwords).invariant (sound_invariant hwindow) hstart
  have hcareful : Store.load w.careful.store s.key = (.ok (some c), ⟨(Store.load w.store s.key).2⟩) := by
    rw [← hload]
    exact CarefulArchive.load_eq w.store s.key
  have hreads := FaithfulStore.load_ok hcareful
  cases hheld : FaithfulStore.held w.careful.store s.key .checkpoint with
  | none =>
      rw [hheld] at hreads
      cases hreads
  | some doc =>
      rw [hheld] at hreads
      obtain ⟨c', hread, heq⟩ := hreads
      cases heq
      obtain ⟨c', rfl, hwhole, hharvested⟩ := hsound doc hheld
      obtain rfl := Checkpoint.eq_of_ofDocument hwhole hread
      exact hharvested hclean

/-- The two pages of the sample, with a store on a disk on which there is only the store's folder. -/
def diskEnd : (Cycle × Report) × Surroundings Archive :=
  (course sample).follow (calm (fun q => .ok (samplePage q.token)) ⟨0, 0⟩) 3 start ⟨.blank, .empty, []⟩

theorem harvested_on_disk_sample :
    (Store.load diskEnd.2.store "source").1 = .ok (some ⟨none, none, none, none, 200⟩) ∧
      Harvested sample diskEnd.2 ⟨none, none⟩ none := by
  have hempty : Archive.blank.held "source" .checkpoint = none := by
    have hvalid : Key.isValid "source" = true := by decide
    rw [Archive.held, Archive.get_eq hvalid, Archive.blank_empty.there hvalid (by decide)]
    rfl
  have hreach : (course sample).Reaches (Replies anything) Crash start ⟨.blank, .empty, []⟩ (.done diskEnd.1)
      diskEnd.2 := .follow (replies_calm (fun _ => trivial) ⟨0, 0⟩) 3 .start
  have hwords : ∀ ev ∈ diskEnd.2.log, ev.effect.InWords := by decide +kernel
  have hload : (Store.load diskEnd.2.store "source").1 = .ok (some ⟨none, none, none, none, 200⟩) := by
    decide +kernel
  exact ⟨hload, harvested_on_disk whole_sample hempty hreach hwords hload rfl⟩

end Cycle

end Harvesting
