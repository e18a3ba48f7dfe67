import Harvesting.Proofs.Cycle.Rules
import Harvesting.Proofs.Output.Shelf
import Harvesting.Proofs.Store.Faithful

/-!
# Surroundings that may fail at any time

A faithful store, a shelf for the documents and a repository. Each of them may refuse whatever it is
asked for; a store or a shelf that does not refuse does its work. The log of all that happened tells
what the repository gave.

* `Event`, `Surroundings`, `Surroundings.exchanges` — the state and its history;
* `Surroundings.Replies` — the answers, where the repository gives what `allowed` permits;
* `Surroundings.Crash` — what a crash leaves: documents that were waiting are lost;
* `Still` and the lemmas on `Replies` — what each effect changes.
-/

namespace Harvesting

/-- An effect and its reply. -/
structure Event where
  effect : Effect
  reply : effect.Reply

/-- A request and the page that answered it. -/
def Event.exchange? : Event → Option (Request × Page)
  | ⟨.request r _, .ok p⟩ => some (r, p)
  | _ => none

/-- A store, a shelf, and all that happened. -/
structure Surroundings (σ : Type) where
  store : σ
  shelf : Shelf
  log : List Event

/-- The part does its work, or refuses and stays as it is. -/
def Tries {ε α τ : Type} (work : τ → Except ε α × τ) (t : τ) (r : Except ε α) (t' : τ) : Prop :=
  work t = (r, t') ∨ (∃ f, r = .error f) ∧ t' = t

namespace Surroundings

variable {σ : Type}

/-- The requests that were answered with a page, in order. -/
def exchanges (w : Surroundings σ) : List (Request × Page) := w.log.filterMap Event.exchange?

/-- A crash loses the documents that wait for a flush. -/
def Crash (w w' : Surroundings σ) : Prop := w' = { w with shelf := { w.shelf with pending := [] } }

theorem exchanges_kept {w w' : Surroundings σ} {ev : Event} (h : w'.log = w.log ++ [ev])
    (hev : ev.exchange? = none) : w'.exchanges = w.exchanges := by
  rw [exchanges, h, List.filterMap_append, List.filterMap_cons_none hev, List.filterMap_nil,
    List.append_nil]
  rfl

section

variable [Store σ]

/-- What an effect with its reply does to the store and the shelf. -/
def Does (allowed : Request → Except SourceFault Page → Prop) (w : Surroundings σ) (store : σ)
    (shelf : Shelf) : (e : Effect) → e.Reply → Prop
  | .load key, r => Tries (Store.load · key) w.store r store ∧ shelf = w.shelf
  | .save key c, r => Tries (Store.save · key c) w.store r store ∧ shelf = w.shelf
  | .loadTally key, r => Tries (Store.loadTally · key) w.store r store ∧ shelf = w.shelf
  | .saveTally key t, r => Tries (Store.saveTally · key t) w.store r store ∧ shelf = w.shelf
  | .request q _, r => allowed q r ∧ store = w.store ∧ shelf = w.shelf
  | .index d, r => Tries (Shelf.index · d) w.shelf r shelf ∧ store = w.store
  | .flush, r => Tries Shelf.flush w.shelf r shelf ∧ store = w.store
  | .close, r => Tries Shelf.close w.shelf r shelf ∧ store = w.store
  | _, _ => store = w.store ∧ shelf = w.shelf

/-- The answers of the surroundings; of the clock and of whether to go on nothing is assumed. -/
def Replies (allowed : Request → Except SourceFault Page → Prop) : Answers (Surroundings σ) :=
  fun w e r w' => w'.log = w.log ++ [⟨e, r⟩] ∧ w.Does allowed w'.store w'.shelf e r

end

section

variable [FaithfulStore σ]

/-- The document of the checkpoint that the store holds. -/
def document (w : Surroundings σ) (key : String) : Option Json :=
  FaithfulStore.held w.store key .checkpoint

/-! ## What each effect changes -/

/-- Nothing changed that is of interest to the source `key`. -/
structure Still (key : String) (w w' : Surroundings σ) : Prop where
  pending : w'.shelf.pending = w.shelf.pending
  committed : w'.shelf.committed = w.shelf.committed
  document : w'.document key = w.document key
  exchanges : w'.exchanges = w.exchanges

variable {allowed : Request → Except SourceFault Page → Prop} {key : String} {w w' : Surroundings σ}

theorem still_of_eq (hstore : w'.store = w.store) (hshelf : w'.shelf = w.shelf)
    (hexchanges : w'.exchanges = w.exchanges) : Still key w w' :=
  ⟨by rw [hshelf], by rw [hshelf], by rw [document, hstore]; rfl, hexchanges⟩

theorem held_tries {ε α : Type} {work : σ → Except ε α × σ} {s s' : σ} {r : Except ε α}
    (hwork : ∀ r s', work s = (r, s') →
      FaithfulStore.held s' key .checkpoint = FaithfulStore.held s key .checkpoint)
    (h : Tries work s r s') :
    FaithfulStore.held s' key .checkpoint = FaithfulStore.held s key .checkpoint := by
  rcases h with h | ⟨-, rfl⟩
  · exact hwork _ _ h
  · rfl

theorem still_of_quiet {e : Effect} {r : e.Reply} (hquiet : e.isQuiet = true)
    (h : Replies allowed w e r w') : Still key w w' := by
  obtain ⟨hlog, hdoes⟩ := h
  -- of the effects that touch the store, only a tally that is saved changes what it holds
  cases e with
  | cancelled => exact still_of_eq hdoes.1 hdoes.2 (exchanges_kept hlog rfl)
  | pause n => exact still_of_eq hdoes.1 hdoes.2 (exchanges_kept hlog rfl)
  | clock => exact still_of_eq hdoes.1 hdoes.2 (exchanges_kept hlog rfl)
  | wallClock => exact still_of_eq hdoes.1 hdoes.2 (exchanges_kept hlog rfl)
  | load k =>
      obtain ⟨hstore, hshelf⟩ := hdoes
      refine ⟨by rw [hshelf], by rw [hshelf], ?_, exchanges_kept hlog rfl⟩
      exact held_tries (fun _ _ h => by rw [FaithfulStore.held_load h]) hstore
  | loadTally k =>
      obtain ⟨hstore, hshelf⟩ := hdoes
      refine ⟨by rw [hshelf], by rw [hshelf], ?_, exchanges_kept hlog rfl⟩
      exact held_tries (fun _ _ h => by rw [FaithfulStore.held_loadTally h]) hstore
  | saveTally k t =>
      obtain ⟨hstore, hshelf⟩ := hdoes
      refine ⟨by rw [hshelf], by rw [hshelf], ?_, exchanges_kept hlog rfl⟩
      exact held_tries (fun _ _ h => FaithfulStore.held_saveTally h key) hstore
  | save k c => cases hquiet
  | request q limit => cases hquiet
  | index d => cases hquiet
  | flush => cases hquiet
  | close => cases hquiet

/-- A checkpoint that is read is the one of the document that the store holds. -/
theorem reads_of_load {c : Option Checkpoint} (h : Replies allowed w (.load key) (.ok c) w') :
    FaithfulStore.Reads (w.document key) c := by
  obtain ⟨-, hstore | ⟨⟨f, hf⟩, -⟩, -⟩ := h
  · exact FaithfulStore.load_ok hstore
  · cases hf

theorem still_of_request_error {q : Request} {limit : Span} {f : SourceFault}
    (h : Replies allowed w (.request q limit) (.error f) w') : Still key w w' := by
  obtain ⟨hlog, -, hstore, hshelf⟩ := h
  exact still_of_eq hstore hshelf (exchanges_kept hlog rfl)

theorem of_request (key : String) {q : Request} {limit : Span} {p : Page}
    (h : Replies allowed w (.request q limit) (.ok p) w') :
    allowed q (.ok p) ∧ w'.shelf = w.shelf ∧ w'.document key = w.document key ∧
      w'.exchanges = w.exchanges ++ [(q, p)] := by
  obtain ⟨hlog, hallowed, hstore, hshelf⟩ := h
  refine ⟨hallowed, hshelf, by rw [document, hstore]; rfl, ?_⟩
  rw [exchanges, hlog, List.filterMap_append]
  rfl

theorem of_index (key : String) {d : Document} (h : Replies allowed w (.index d) (.ok ()) w') :
    w'.shelf.pending = w.shelf.pending ++ [d] ∧ w'.shelf.committed = w.shelf.committed ∧
      w'.document key = w.document key ∧ w'.exchanges = w.exchanges := by
  obtain ⟨hlog, hshelf | ⟨⟨f, hf⟩, -⟩, hstore⟩ := h
  · obtain ⟨hpending, hcommitted⟩ := Shelf.index_ok hshelf
    exact ⟨hpending, hcommitted, by rw [document, hstore]; rfl,
      exchanges_kept hlog rfl⟩
  · cases hf

theorem still_of_index_error {d : Document} {f : SinkFault}
    (h : Replies allowed w (.index d) (.error f) w') : Still key w w' := by
  obtain ⟨hlog, hshelf | ⟨-, hshelf⟩, hstore⟩ := h
  · exact still_of_eq hstore (Shelf.index_error hshelf)
      (exchanges_kept hlog rfl)
  · exact still_of_eq hstore hshelf (exchanges_kept hlog rfl)

theorem of_flush (key : String) (h : Replies allowed w .flush (.ok ()) w') :
    w'.shelf.pending = [] ∧ w'.shelf.document? = overlay w.shelf.pending w.shelf.document? ∧
      w'.document key = w.document key ∧ w'.exchanges = w.exchanges := by
  obtain ⟨hlog, hshelf | ⟨⟨f, hf⟩, -⟩, hstore⟩ := h
  · obtain ⟨hpending, hdocument⟩ := Shelf.flush_ok hshelf
    exact ⟨hpending, hdocument, by rw [document, hstore]; rfl,
      exchanges_kept hlog rfl⟩
  · cases hf

theorem still_of_flush_error {f : SinkFault} (h : Replies allowed w .flush (.error f) w') :
    Still key w w' := by
  obtain ⟨hlog, hshelf | ⟨-, hshelf⟩, hstore⟩ := h
  · obtain ⟨hpending, hcommitted⟩ := Shelf.flush_error hshelf
    exact ⟨hpending, hcommitted, by rw [document, hstore]; rfl,
      exchanges_kept hlog rfl⟩
  · exact still_of_eq hstore hshelf (exchanges_kept hlog rfl)

theorem of_save {c : Checkpoint} (h : Replies allowed w (.save key c) (.ok ()) w') :
    w'.document key = some c.toDocument ∧ w'.shelf = w.shelf ∧ w'.exchanges = w.exchanges := by
  obtain ⟨hlog, hstore | ⟨⟨f, hf⟩, -⟩, hshelf⟩ := h
  · exact ⟨FaithfulStore.save_ok hstore, hshelf, exchanges_kept hlog rfl⟩
  · cases hf

theorem still_of_save_error {c : Checkpoint} {f : Store.Fault}
    (h : Replies allowed w (.save key c) (.error f) w') : Still key w w' := by
  obtain ⟨hlog, hstore, hshelf⟩ := h
  refine ⟨by rw [hshelf], by rw [hshelf], ?_, exchanges_kept hlog rfl⟩
  rcases hstore with hstore | ⟨-, hstore⟩
  · exact congrFun (congrFun (FaithfulStore.save_error hstore) key) .checkpoint
  · rw [document, hstore]
    rfl

end

/-! ## Surroundings without faults -/

/-- The state after a reply, with another store and shelf. -/
def after (w : Surroundings σ) (e : Effect) (r : e.Reply) (store : σ) (shelf : Shelf) : Surroundings σ :=
  ⟨store, shelf, w.log ++ [⟨e, r⟩]⟩

variable [Store σ]

/-- The clock stands still, nobody cancels, and store, shelf and repository do their work. -/
def calm (repo : Request → Except SourceFault Page) (now : Instant) (w : Surroundings σ) :
    (e : Effect) → e.Reply × Surroundings σ
  | .cancelled => (false, w.after .cancelled false w.store w.shelf)
  | .pause n => (true, w.after (.pause n) true w.store w.shelf)
  | .clock => (now, w.after .clock now w.store w.shelf)
  | .wallClock => (now, w.after .wallClock now w.store w.shelf)
  | .load key =>
    let a := Store.load w.store key
    (a.1, w.after (.load key) a.1 a.2 w.shelf)
  | .save key c =>
    let a := Store.save w.store key c
    (a.1, w.after (.save key c) a.1 a.2 w.shelf)
  | .loadTally key =>
    let a := Store.loadTally w.store key
    (a.1, w.after (.loadTally key) a.1 a.2 w.shelf)
  | .saveTally key t =>
    let a := Store.saveTally w.store key t
    (a.1, w.after (.saveTally key t) a.1 a.2 w.shelf)
  | .request q limit => (repo q, w.after (.request q limit) (repo q) w.store w.shelf)
  | .index d =>
    let a := w.shelf.index d
    (a.1, w.after (.index d) a.1 w.store a.2)
  | .flush =>
    let a := w.shelf.flush
    (a.1, w.after .flush a.1 w.store a.2)
  | .close =>
    let a := w.shelf.close
    (a.1, w.after .close a.1 w.store a.2)

theorem replies_calm {allowed : Request → Except SourceFault Page → Prop}
    {repo : Request → Except SourceFault Page} (hrepo : ∀ q, allowed q (repo q)) (now : Instant) (w : Surroundings σ) (e : Effect) :
    Replies allowed w e (calm repo now w e).1 (calm repo now w e).2 := by
  refine ⟨by cases e <;> rfl, ?_⟩
  -- every part does its work, which is the first of the two ways to answer
  cases e with
  | cancelled => exact ⟨rfl, rfl⟩
  | pause n => exact ⟨rfl, rfl⟩
  | clock => exact ⟨rfl, rfl⟩
  | wallClock => exact ⟨rfl, rfl⟩
  | load key => exact ⟨.inl rfl, rfl⟩
  | save key c => exact ⟨.inl rfl, rfl⟩
  | loadTally key => exact ⟨.inl rfl, rfl⟩
  | saveTally key t => exact ⟨.inl rfl, rfl⟩
  | request q limit => exact ⟨hrepo q, rfl, rfl⟩
  | index d => exact ⟨.inl rfl, rfl⟩
  | flush => exact ⟨.inl rfl, rfl⟩
  | close => exact ⟨.inl rfl, rfl⟩

/-! ## A small harvest -/

/-- A source without bounds. -/
def sample : CycleSettings :=
  ⟨"source", ⟨"http://repository", none, "oai_dc", ⟨none, none⟩, none⟩, ⟨⟨none, none⟩, 0⟩, .zero, .zero,
    Transformer.documents ⟨"index", none⟩⟩

/-- Two pages; the record of the second page is also on the first one. -/
def samplePage : Option String → Page
  | none => ⟨200, [⟨"oai:1", none, [], false, some "<a/>"⟩, ⟨"oai:2", none, [], false, some "<b/>"⟩],
      some "more", none, none⟩
  | some _ => ⟨200, [⟨"oai:2", none, [], false, some "<c/>"⟩], none, none, none⟩

/-- Nothing is stored, and nothing was written. -/
def sampleStart : Surroundings MemoryStore := ⟨.empty, .empty, []⟩

end Surroundings

end Harvesting
