import Harvesting.Proofs.Progress.Tally
import Harvesting.Proofs.Store.Archive
import Harvesting.Proofs.Store.Faithful
import Mathlib.Data.List.Induction
import Mathlib.Logic.Function.Basic

/-!
# Stores return what was saved

How a store answers an act is told by the acts before it. The store on disk and the store in memory give
that answer, so neither can be told from the other by its answers.

* `Store.Act`, `Store.replies` — what is done to a store, and the answers to a list of such acts;
* `Store.saved?`, `Store.savedTally?` — what was saved last, and not reset since;
* `Store.expected` — the answers that the acts themselves determine;
* `ExactStore` — stores that keep a table of documents; `ExactStore.replies_eq` — these answer as expected;
* `Archive.answers_as_memory` — the store on disk answers as the store in memory does.
-/

namespace Harvesting

namespace Store

/-! ## Acts and their answers -/

/-- What is done to a store. -/
inductive Act where
  | save (key : String) (c : Checkpoint)
  | load (key : String)
  | saveTally (key : String) (t : Tally)
  | loadTally (key : String)
  | reset (key : String)

def Act.key : Act → String
  | .save key _ | .load key | .saveTally key _ | .loadTally key | .reset key => key

/-- The answer to an act. -/
inductive Returned where
  | saved (r : Except Fault Unit)
  | loaded (r : Except Fault (Option Checkpoint))
  | loadedTally (r : Except Fault Tally)
  | existed (r : Except Fault Bool)

def Act.run {σ : Type} [Store σ] (s : σ) : Act → Returned × σ
  | .save key c => (Store.save s key c).map .saved id
  | .load key => (Store.load s key).map .loaded id
  | .saveTally key t => (Store.saveTally s key t).map .saved id
  | .loadTally key => (Store.loadTally s key).map .loadedTally id
  | .reset key => (Store.reset s key).map .existed id

/-- The answers to one act after the other. -/
def replies {σ : Type} [Store σ] (s : σ) : List Act → List Returned
  | [] => []
  | act :: acts => (act.run s).1 :: replies (act.run s).2 acts

/-! ## What the acts themselves determine -/

/-- The last checkpoint saved under a key, unless it was reset since. -/
def saved? (key : String) (before : List Act) : Option Checkpoint :=
  before.foldl (fun last act => match act with
    | .save k c => if k = key then some c else last
    | .reset k => if k = key then none else last
    | _ => last) none

/-- The last tally saved under a key. -/
def savedTally? (key : String) (before : List Act) : Option Tally :=
  before.foldl (fun last act => match act with
    | .saveTally k t => if k = key then some t else last
    | _ => last) none

/-- The answer to an act after others: a text that is no key is refused, and nothing else is. -/
def Act.expected (before : List Act) : Act → Returned
  | .save key _ => .saved (validate key)
  | .load key => .loaded ((validate key).map fun _ => saved? key before)
  | .saveTally key _ => .saved (validate key)
  | .loadTally key => .loadedTally ((validate key).map fun _ => (savedTally? key before).getD Tally.empty)
  | .reset key => .existed ((validate key).map fun _ => (saved? key before).isSome)

/-- The answers to one act after the other, after others. -/
def expected (before : List Act) : List Act → List Returned
  | [] => []
  | act :: acts => act.expected before :: expected (before ++ [act]) acts

/-- What is saved can be written without loss. -/
def Act.Storable : Act → Prop
  | .save _ c => c.window.Dated ∧ Checkpoint.Storable c.status
  | .saveTally _ t => t.Storable
  | _ => True

/-- The folder of a source can have the key of the act as its name. -/
def Act.Short (act : Act) : Prop := Key.isValid act.key = true → Disk.Short act.key

/-! ## Tables of documents -/

/-- The documents of all sources. -/
abbrev Table := String × Slot → Option Json

/-- The table with a document of a source set or cleared; under a text that is no key nothing is kept. -/
def Table.set (m : Table) (key : String) (slot : Slot) (o : Option Json) : Table :=
  if Key.isValid key then Function.update m (key, slot) o else m

theorem Table.set_valid {key : String} (h : Key.isValid key = true) (m : Table) (slot : Slot) (o : Option Json) :
    m.set key slot o = Function.update m (key, slot) o := if_pos h

theorem Table.set_invalid {key : String} (h : ¬ Key.isValid key = true) (m : Table) (slot : Slot)
    (o : Option Json) : m.set key slot o = m := if_neg h

/-- The documents that a store holds after acts. -/
def table (before : List Act) (place : String × Slot) : Option Json :=
  if Key.isValid place.1 then
    match place.2 with
    | .checkpoint => (saved? place.1 before).map Checkpoint.toDocument
    | .tally => (savedTally? place.1 before).map Tally.toDocument
  else none

section

variable {before : List Act} {key : String}

theorem table_nil : table [] = fun _ => none := by
  funext ⟨key, slot⟩
  cases slot <;> simp [table, saved?, savedTally?]

theorem saved?_append (key : String) (before : List Act) (act : Act) :
    saved? key (before ++ [act]) = match act with
      | .save k c => if k = key then some c else saved? key before
      | .reset k => if k = key then none else saved? key before
      | _ => saved? key before := by
  rw [saved?, List.foldl_append]
  rfl

theorem savedTally?_append (key : String) (before : List Act) (act : Act) :
    savedTally? key (before ++ [act]) = match act with
      | .saveTally k t => if k = key then some t else savedTally? key before
      | _ => savedTally? key before := by
  rw [savedTally?, List.foldl_append]
  rfl

theorem mem_of_saved? {c : Checkpoint} (h : saved? key before = some c) : .save key c ∈ before := by
  induction before using List.reverseRecOn with
  | nil => cases h
  | append_singleton before act ih =>
      rw [saved?_append] at h
      rw [List.mem_append, List.mem_singleton]
      cases act with
      | save k c' =>
          simp only at h
          split at h
          · next hk =>
            cases h
            cases hk
            exact .inr rfl
          · exact .inl (ih h)
      | reset k =>
          simp only at h
          split at h
          · cases h
          · exact .inl (ih h)
      | _ => exact .inl (ih h)

theorem mem_of_savedTally? {t : Tally} (h : savedTally? key before = some t) : .saveTally key t ∈ before := by
  induction before using List.reverseRecOn with
  | nil => cases h
  | append_singleton before act ih =>
      rw [savedTally?_append] at h
      rw [List.mem_append, List.mem_singleton]
      cases act with
      | saveTally k t' =>
          simp only at h
          split at h
          · next hk =>
            cases h
            cases hk
            exact .inr rfl
          · exact .inl (ih h)
      | _ => exact .inl (ih h)

theorem table_load : table (before ++ [.load key]) = table before := by
  funext place
  simp only [table, saved?_append, savedTally?_append]

theorem table_loadTally : table (before ++ [.loadTally key]) = table before := by
  funext place
  simp only [table, saved?_append, savedTally?_append]

/-- An act that sets or clears the document of its key in one slot. -/
theorem table_set {act : Act} {slot : Slot} {o : Option Json}
    (hset : Key.isValid key = true → table (before ++ [act]) (key, slot) = o)
    (hkept : ∀ key' slot', (key', slot') ≠ (key, slot) →
      table (before ++ [act]) (key', slot') = table before (key', slot')) :
    table (before ++ [act]) = Table.set (table before) key slot o := by
  funext ⟨key', slot'⟩
  by_cases hvalid : Key.isValid key = true
  · rw [Table.set_valid hvalid]
    by_cases heq : (key', slot') = (key, slot)
    · rw [heq, Function.update_self, hset hvalid]
    · rw [Function.update_of_ne heq, hkept key' slot' heq]
  · rw [Table.set_invalid hvalid]
    by_cases heq : (key', slot') = (key, slot)
    · cases heq
      rw [table, table, if_neg hvalid, if_neg hvalid]
    · exact hkept key' slot' heq

/-- An act that sets or clears the checkpoint of its key. -/
theorem table_checkpoint {act : Act} {c : Option Checkpoint}
    (hact : ∀ k, saved? k (before ++ [act]) = if key = k then c else saved? k before)
    (htally : ∀ k, savedTally? k (before ++ [act]) = savedTally? k before) :
    table (before ++ [act]) = Table.set (table before) key .checkpoint (c.map Checkpoint.toDocument) := by
  apply table_set
  · intro hvalid
    simp [table, hvalid, hact]
  · intro key' slot' hne
    cases slot' with
    | checkpoint =>
        have hkey : key ≠ key' := by
          rintro rfl
          exact hne rfl
        simp only [table, hact, if_neg hkey]
    | tally => simp only [table, htally]

theorem table_save {c : Checkpoint} :
    table (before ++ [.save key c]) = Table.set (table before) key .checkpoint (some c.toDocument) :=
  table_checkpoint (c := some c) (fun k => saved?_append k before _) fun k => savedTally?_append k before _

theorem table_reset : table (before ++ [.reset key]) = Table.set (table before) key .checkpoint none :=
  table_checkpoint (c := none) (fun k => saved?_append k before _) fun k => savedTally?_append k before _

theorem table_saveTally {t : Tally} :
    table (before ++ [.saveTally key t]) = Table.set (table before) key .tally (some t.toDocument) := by
  apply table_set
  · intro hvalid
    simp [table, hvalid, savedTally?_append]
  · intro key' slot' hne
    cases slot' with
    | checkpoint => simp only [table, saved?_append]
    | tally =>
        have hkey : key ≠ key' := by
          rintro rfl
          exact hne rfl
        simp only [table, savedTally?_append, if_neg hkey]

end

/-- The document can be kept: it is written and read without loss, and a checkpoint is one. -/
structure Fits (slot : Slot) (doc : Json) : Prop where
  plain : Json.Plain 0 doc
  understood : slot = .checkpoint → ∃ c, Checkpoint.ofDocument doc = .ok c

theorem fits_checkpoint {c : Checkpoint} (h : c.window.Dated) (hstatus : Checkpoint.Storable c.status) :
    Fits .checkpoint c.toDocument :=
  ⟨Checkpoint.plain_toDocument hstatus, fun _ => ⟨c, Checkpoint.ofDocument_dated h hstatus⟩⟩

theorem fits_tally {t : Tally} (h : t.Storable) : Fits .tally t.toDocument :=
  ⟨Tally.plain_toDocument h.counter h.cycles, nofun⟩

end Store

/-! ## Stores that keep a table -/

open Store

/-- A store that holds a table of documents and answers from it. -/
class ExactStore (σ : Type) extends Store σ where
  Holds : σ → Table → Prop
  get_eq : ∀ {s : σ} {m : Table} {key slot}, Holds s m → (Key.isValid key = true → Disk.Short key) →
    get s key slot = ((validate key).map fun _ => m (key, slot), s)
  put_eq : ∀ {s : σ} {m : Table} {key slot doc}, Holds s m → (Key.isValid key = true → Disk.Short key) →
    Fits slot doc → ∃ s', put s key slot doc = (validate key, s') ∧ Holds s' (m.set key slot (some doc))
  remove_eq : ∀ {s : σ} {m : Table} {key slot}, Holds s m → (Key.isValid key = true → Disk.Short key) →
    ∃ s', remove s key slot = ((validate key).map fun _ => (m (key, slot)).isSome, s') ∧
      Holds s' (m.set key slot none)

namespace ExactStore

variable {σ : Type} [ExactStore σ] {s : σ} {before : List Act} {act : Act} {key : String}

/-- What is loaded is the checkpoint that was saved last. -/
theorem load_eq (h : Holds s (table before)) (hshort : Key.isValid key = true → Disk.Short key)
    (hbefore : ∀ act ∈ before, act.Storable) :
    Store.load s key = ((validate key).map fun _ => saved? key before, s) := by
  rw [Store.load, get_eq h hshort, validate]
  by_cases hvalid : Key.isValid key = true
  · rw [if_pos hvalid, table, if_pos hvalid]
    cases hc : saved? key before with
    | none => rfl
    | some c =>
        obtain ⟨hdated, hstatus⟩ := hbefore _ (mem_of_saved? hc)
        simp only [Except.map, Option.map_some, Checkpoint.ofDocument_dated hdated hstatus]
        rfl
  · rw [if_neg hvalid]
    rfl

/-- What is loaded is the tally that was saved last. -/
theorem loadTally_eq (h : Holds s (table before)) (hshort : Key.isValid key = true → Disk.Short key)
    (hbefore : ∀ act ∈ before, act.Storable) :
    Store.loadTally s key = ((validate key).map fun _ => (savedTally? key before).getD Tally.empty, s) := by
  rw [Store.loadTally, get_eq h hshort, validate]
  by_cases hvalid : Key.isValid key = true
  · rw [if_pos hvalid, table, if_pos hvalid]
    cases ht : savedTally? key before with
    | none => rfl
    | some t =>
        have htally : t.Storable := hbefore _ (mem_of_savedTally? ht)
        simp only [Except.map, Option.map_some, Tally.ofDocument_eq htally.lasting]
        rfl
  · rw [if_neg hvalid]
    rfl

/-- An act is answered as expected, and the store goes on with the table after it. -/
theorem run_eq (h : Holds s (table before)) (hbefore : ∀ act ∈ before, act.Storable) (hact : act.Storable)
    (hshort : act.Short) :
    ∃ s', act.run s = (act.expected before, s') ∧ Holds s' (table (before ++ [act])) := by
  cases act with
  | save key c =>
      have hkey : Key.isValid key = true → Disk.Short key := hshort
      obtain ⟨s', hput, hholds⟩ := put_eq h hkey (fits_checkpoint hact.1 hact.2)
      refine ⟨s', ?_, ?_⟩
      · rw [Act.run, Store.save, hput]
        rfl
      · rw [table_save]
        exact hholds
  | load key =>
      have hkey : Key.isValid key = true → Disk.Short key := hshort
      refine ⟨s, ?_, ?_⟩
      · rw [Act.run, load_eq h hkey hbefore]
        rfl
      · rw [table_load]
        exact h
  | saveTally key t =>
      have hkey : Key.isValid key = true → Disk.Short key := hshort
      obtain ⟨s', hput, hholds⟩ := put_eq h hkey (fits_tally hact)
      refine ⟨s', ?_, ?_⟩
      · rw [Act.run, Store.saveTally, hput]
        rfl
      · rw [table_saveTally]
        exact hholds
  | loadTally key =>
      have hkey : Key.isValid key = true → Disk.Short key := hshort
      refine ⟨s, ?_, ?_⟩
      · rw [Act.run, loadTally_eq h hkey hbefore]
        rfl
      · rw [table_loadTally]
        exact h
  | reset key =>
      have hkey : Key.isValid key = true → Disk.Short key := hshort
      obtain ⟨s', hremove, hholds⟩ := remove_eq h hkey
      refine ⟨s', ?_, ?_⟩
      · rw [Act.run, Store.reset, hremove, Act.expected, validate]
        by_cases hvalid : Key.isValid key = true
        · rw [if_pos hvalid, table, if_pos hvalid]
          simp only [Option.isSome_map]
          rfl
        · rw [if_neg hvalid]
          rfl
      · rw [table_reset]
        exact hholds

/-- All acts are answered as expected. -/
theorem replies_eq {acts : List Act} (h : Holds s (table before)) (hbefore : ∀ act ∈ before, act.Storable)
    (hacts : ∀ act ∈ acts, act.Storable) (hshort : ∀ act ∈ acts, act.Short) :
    replies s acts = expected before acts := by
  induction acts generalizing s before with
  | nil => rfl
  | cons act acts ih =>
      obtain ⟨hact, hacts⟩ := List.forall_mem_cons.1 hacts
      obtain ⟨hfirst, hshort⟩ := List.forall_mem_cons.1 hshort
      obtain ⟨s', hrun, hholds⟩ := run_eq h hbefore hact hfirst
      rw [replies, expected, hrun]
      refine congrArg _ (ih hholds ?_ hacts hshort)
      intro act' hact'
      rcases List.mem_append.1 hact' with hact' | hact'
      · exact hbefore act' hact'
      · cases List.mem_singleton.1 hact'
        exact hact

end ExactStore

/-! ## The store in memory -/

namespace MemoryStore

/-- Its documents are those of the table, and it fails no act. -/
structure Holds (s : MemoryStore) (m : Table) : Prop where
  loads : s.failingLoads = 0
  documents : ∀ key slot, s.document? key slot = m (key, slot)

instance : ExactStore MemoryStore where
  Holds := Holds
  get_eq {s m key slot} h _ := by
    show s.get key slot = _
    rw [get, h.loads, validate]
    by_cases hvalid : Key.isValid key = true
    · rw [if_pos hvalid]
      simp only [Nat.lt_irrefl, if_false, h.documents]
      rfl
    · rw [if_neg hvalid]
      rfl
  put_eq {s m key slot doc} h _ hfits := by
    have hkept (history : List Checkpoint) : Holds ⟨((key, slot), doc) :: s.others key slot, history,
        s.failingLoads⟩ (Function.update m (key, slot) (some doc)) := by
      refine ⟨h.loads, ?_⟩
      intro key' slot'
      rw [document?_put, Function.update_apply, h.documents]
    show ∃ s', s.put key slot doc = (validate key, s') ∧ _
    rw [put, validate]
    by_cases hvalid : Key.isValid key = true
    · rw [if_pos hvalid, Table.set_valid hvalid]
      cases slot with
      | tally => exact ⟨_, rfl, hkept s.history⟩
      | checkpoint =>
          obtain ⟨c, hc⟩ := hfits.understood rfl
          simp only [hc]
          exact ⟨_, rfl, hkept (s.history ++ [c])⟩
    · rw [if_neg hvalid, Table.set_invalid hvalid]
      exact ⟨s, rfl, h⟩
  remove_eq {s m key slot} h _ := by
    show ∃ s', s.remove key slot = (_, s') ∧ _
    rw [remove, validate]
    by_cases hvalid : Key.isValid key = true
    · rw [if_pos hvalid, Table.set_valid hvalid, ← h.documents]
      refine ⟨_, rfl, h.loads, ?_⟩
      intro key' slot'
      rw [document?_others, Function.update_apply, h.documents]
    · rw [if_neg hvalid, Table.set_invalid hvalid]
      exact ⟨s, rfl, h⟩

theorem holds_empty : empty.Holds (table []) := by
  refine ⟨rfl, ?_⟩
  intro key slot
  rw [table_nil]
  rfl

end MemoryStore

/-! ## The store on disk -/

namespace Archive

/-- What there is at the place of a document. -/
def entry : Option Json → Except Disk.Fault Disk.Entry
  | some doc => .ok (.file (Disk.bytesOf doc.pretty))
  | none => .error .notFound

/-- Every document can be stored, and those of the table are in place and nothing else. -/
structure Holds (a : Archive) (m : Table) : Prop where
  ready : ∀ key slot, Key.isValid key = true → Disk.Short key → a.Ready key slot
  there : ∀ key slot, Key.isValid key = true → Disk.Short key → a.there key slot .current = entry (m (key, slot))
  plain : ∀ place, ∀ doc ∈ m place, Json.Plain 0 doc

theorem answer_entry (id : String) {o : Option Json} (h : ∀ doc ∈ o, Json.Plain 0 doc) :
    answer id (entry o) = .ok o := by
  cases o with
  | none => rfl
  | some doc =>
      rw [entry, answer, parse_pretty id (h doc rfl)]
      rfl

theorem Changes.holds {a a' : Archive} {key : String} {slot : Slot} {m : Table} {o : Option Json}
    (h : Changes a a' key slot (entry o)) (hvalid : Key.isValid key = true) (hplain : ∀ doc ∈ o, Json.Plain 0 doc)
    (hholds : a.Holds m) : a'.Holds (m.set key slot o) := by
  rw [Table.set_valid hvalid]
  constructor
  · intro key' slot' hvalid' hshort
    exact h.ready (hholds.ready key' slot' hvalid' hshort)
  · intro key' slot' hvalid' hshort
    by_cases heq : (key', slot') = (key, slot)
    · cases heq
      rw [h.current, Function.update_self]
    · rw [Function.update_of_ne heq, ← hholds.there key' slot' hvalid' hshort]
      exact h.elsewhere key' slot' .current hvalid' heq (hholds.ready key' slot' hvalid' hshort).reachable
  · intro place doc hdoc
    by_cases heq : place = (key, slot)
    · rw [heq, Function.update_self] at hdoc
      exact hplain doc hdoc
    · rw [Function.update_of_ne heq] at hdoc
      exact hholds.plain place doc hdoc

instance : ExactStore Archive where
  Holds := Holds
  get_eq {a m key slot} h hshort := by
    rw [validate]
    by_cases hvalid : Key.isValid key = true
    · rw [if_pos hvalid, Archive.get_eq hvalid, h.there key slot hvalid (hshort hvalid),
        answer_entry _ (h.plain (key, slot))]
      rfl
    · rw [if_neg hvalid, get_invalid hvalid]
      rfl
  put_eq {a m key slot doc} h hshort hfits := by
    rw [validate]
    by_cases hvalid : Key.isValid key = true
    · rw [if_pos hvalid]
      obtain ⟨a', hput, hchanges⟩ := put_ready (h.ready key slot hvalid (hshort hvalid)) doc
      refine ⟨a', hput, hchanges.holds (o := some doc) hvalid ?_ h⟩
      rintro _ ⟨⟩
      exact hfits.plain
    · rw [if_neg hvalid, put_invalid hvalid, Table.set_invalid hvalid]
      exact ⟨a, rfl, h⟩
  remove_eq {a m key slot} h hshort := by
    rw [validate]
    by_cases hvalid : Key.isValid key = true
    · rw [if_pos hvalid]
      obtain ⟨a', hremove, hchanges⟩ := remove_ready (h.ready key slot hvalid (hshort hvalid))
      refine ⟨a', ?_, hchanges.holds (o := none) hvalid nofun h⟩
      rw [hremove, h.there key slot hvalid (hshort hvalid)]
      cases m (key, slot) <;> rfl
    · rw [if_neg hvalid, remove_invalid hvalid, Table.set_invalid hvalid]
      exact ⟨a, rfl, h⟩

theorem Empty.holds {a : Archive} (h : a.Empty) : a.Holds (table []) := by
  rw [table_nil]
  refine ⟨?_, ?_, nofun⟩
  · intro key slot hvalid hshort
    exact h.ready hvalid hshort
  · intro key slot hvalid hshort
    exact h.there hvalid hshort

/--
A store on disk that begins with an empty folder answers every act as a store in memory does that begins
with nothing: what is loaded is what was saved last and not reset since.
-/
theorem answers_as_memory {a : Archive} (h : a.Empty) (acts : List Act) (hacts : ∀ act ∈ acts, act.Storable)
    (hshort : ∀ act ∈ acts, act.Short) :
    replies a acts = replies MemoryStore.empty acts ∧ replies a acts = expected [] acts := by
  have hdisk : replies a acts = expected [] acts :=
    ExactStore.replies_eq (s := a) h.holds (by simp) hacts hshort
  have hmemory : replies MemoryStore.empty acts = expected [] acts :=
    ExactStore.replies_eq (s := MemoryStore.empty) MemoryStore.holds_empty (by simp) hacts hshort
  exact ⟨hdisk.trans hmemory.symm, hdisk⟩

/-- A checkpoint with an empty token, one bound and a status that no server gives. -/
def oddCheckpoint : Checkpoint := ⟨some "", some ⟨-1, 0⟩, none, some "\n\"é\u0001", -7⟩

/-- A tally with a fraction of a second. -/
def oddTally : Tally := ⟨some ⟨1577836800, 123456789⟩, none, 18446744073709551615, 3, true⟩

def oddActs : List Act :=
  [.load "src", .save "src" oddCheckpoint, .saveTally "src" oddTally, .load "src", .save "../src" oddCheckpoint,
    .reset "src", .reset "src", .load "src", .loadTally "src", .loadTally "other"]

theorem answers_as_memory_odd :
    blank.Empty ∧ (∀ act ∈ oddActs, act.Storable) ∧ (∀ act ∈ oddActs, act.Short) ∧
    replies blank oddActs = replies MemoryStore.empty oddActs ∧
    replies blank oddActs =
      [.loaded (.ok none), .saved (.ok ()), .saved (.ok ()), .loaded (.ok (some oddCheckpoint)),
        .saved (.error (.invalidKey "../src")), .existed (.ok true), .existed (.ok false), .loaded (.ok none),
        .loadedTally (.ok oddTally), .loadedTally (.ok Tally.empty)] := by
  have hcheckpoint : oddCheckpoint.window.Dated ∧ Checkpoint.Storable oddCheckpoint.status := by
    refine ⟨⟨?_, nofun⟩, by decide, by decide⟩
    rintro _ ⟨⟩
    exact ⟨⟨by decide, by decide, by decide⟩, by decide⟩
  have htally : oddTally.Storable := by
    refine ⟨?_, nofun, by decide, by decide⟩
    rintro _ ⟨⟩
    exact ⟨by decide, by decide, by decide⟩
  have hacts : ∀ act ∈ oddActs, act.Storable := by
    intro act hact
    simp only [oddActs, List.mem_cons, List.not_mem_nil, or_false] at hact
    rcases hact with rfl | rfl | rfl | rfl | rfl | rfl | rfl | rfl | rfl | rfl <;>
      first | exact trivial | exact hcheckpoint | exact htally
  have hshort : ∀ act ∈ oddActs, act.Short := by
    intro act hact
    simp only [oddActs, List.mem_cons, List.not_mem_nil, or_false] at hact
    rcases hact with rfl | rfl | rfl | rfl | rfl | rfl | rfl | rfl | rfl | rfl <;> exact fun _ => by decide
  obtain ⟨hsame, hexpected⟩ := answers_as_memory blank_empty oddActs hacts hshort
  exact ⟨blank_empty, hacts, hshort, hsame, hexpected.trans rfl⟩

end Archive

end Harvesting
