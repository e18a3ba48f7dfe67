import Harvesting.Progress.Tally
import Harvesting.Proofs.Progress.Checkpoint
import Harvesting.Proofs.Time.Accepted

/-!
# Tallies are read as they were stored

* `Tally.Lasting` — times that a clock shows, and counts of 64 bits; `Tally.Storable` — the same with years of
  four digits;
* `Tally.plain_toDocument` — the document of such a tally is written and read without loss;
* `Tally.ofDocument_eq` — such a tally comes back as it was;
* `Tally.lasting_of_ofDocument` — every tally that is read is one of them.
-/

namespace Harvesting.Tally

open Checkpoint (member checkTable_member lookup_member plainMembers_member sublist_member)

/-- The times are moments that a clock shows, and 64 bits hold the counts. -/
structure Lasting (t : Tally) : Prop where
  started : ∀ i ∈ t.started, i.Shown
  timestamp : ∀ i ∈ t.timestamp, i.Shown
  counter : t.counter ≤ Json.maxWhole
  cycles : t.cycles ≤ Json.maxWhole

/-- The times can be written with years of four digits, and 64 bits hold the counts. -/
structure Storable (t : Tally) : Prop where
  started : ∀ i ∈ t.started, i.Writable
  timestamp : ∀ i ∈ t.timestamp, i.Writable
  counter : t.counter ≤ Json.maxWhole
  cycles : t.cycles ≤ Json.maxWhole

theorem Storable.lasting {t : Tally} (h : t.Storable) : t.Lasting where
  started i hi := (h.started i hi).shown
  timestamp i hi := (h.timestamp i hi).shown
  counter := h.counter
  cycles := h.cycles

/-! ## The stored document -/

/-- How a time is written. -/
def timeJson (t : Instant) : Json := .string (Stamp.text t)

/-- The members of the part about the account, in the order of their names. -/
def fields (t : Tally) : List (String × Json) :=
  [("active", .bool t.active)] ++ ([("counter", .int t.counter)] ++ ([("cycles", .int t.cycles)] ++
    (member "started" timeJson t.started ++ member "timestamp" timeJson t.timestamp)))

theorem toJson_eq (t : Tally) : t.toJson = .object t.fields := by
  obtain ⟨started, timestamp, counter, cycles, active⟩ := t
  have hnil (name : String) (v : Json) : Json.insert name v [] = [(name, v)] := rfl
  cases started <;> cases timestamp <;>
    simp (disch := decide) only [toJson, fields, timeJson, Json.ofFields, member, List.nil_append,
      List.cons_append, List.foldl_cons, List.foldl_nil, hnil, Json.insert_lt, Json.insert_gt]

theorem ranked_fields (t : Tally) : Json.Ranked t.fields := by
  have hnames : (t.fields.map (·.1)).Sublist ["active", "counter", "cycles", "started", "timestamp"] := by
    simp only [fields, List.map_append]
    exact (List.Sublist.refl _).append ((List.Sublist.refl _).append ((List.Sublist.refl _).append
      ((sublist_member _ _ _).append (sublist_member _ _ _))))
  exact List.Pairwise.sublist hnames (by decide)

theorem toDocument_eq (t : Tally) : t.toDocument = .object [("state", .object t.fields)] := by
  rw [← toJson_eq]
  rfl

/-- The document of a tally is plain. -/
theorem plain_toDocument {t : Tally} (hcounter : t.counter ≤ Json.maxWhole) (hcycles : t.cycles ≤ Json.maxWhole) :
    Json.Plain 0 t.toDocument := by
  have hwords {n : Nat} (hn : n ≤ Json.maxWhole) : Json.InWords n := by
    unfold Json.InWords
    omega
  have hfields : Json.PlainMembers 2 t.fields := by
    simp only [fields, Json.plainMembers_append]
    exact ⟨⟨trivial, trivial⟩, ⟨hwords hcounter, trivial⟩, ⟨hwords hcycles, trivial⟩,
      plainMembers_member fun _ => trivial, plainMembers_member fun _ => trivial⟩
  rw [toDocument_eq]
  exact ⟨by decide, List.pairwise_singleton _ _, ⟨by decide, ranked_fields t, hfields⟩, trivial⟩

/-! ## What is read -/

/-- The members of the part about the account, as trees. -/
def members (t : Tally) : List (String × Tree) :=
  [("active", .scalar none (.bool t.active))] ++ ([("counter", .scalar none (.int t.counter))] ++
    ([("cycles", .scalar none (.int t.cycles))] ++ (Tree.ofJsonMembers none (member "started" timeJson t.started) ++
    Tree.ofJsonMembers none (member "timestamp" timeJson t.timestamp))))

theorem ofJson_toDocument (t : Tally) :
    Tree.ofJson none t.toDocument = .table none [("state", .table none t.members)] := by
  have hfields : Tree.ofJsonMembers none t.fields = t.members := by
    rw [fields]
    simp only [Tree.ofJsonMembers_append]
    rfl
  rw [toDocument_eq, ← hfields]
  rfl

theorem instant_timeJson {i : Instant} (h : i.Shown) : instant (Tree.ofJson none (timeJson i)) = .ok i := by
  have hread := Stamp.lenient_text h
  rw [timeJson, Tree.ofJson, instant]
  simp only [bind, Except.bind, Tree.string, hread]
  rfl

theorem optional_timeJson {i : Instant} (h : i.Shown) :
    Tree.optional instant (Tree.ofJson none (timeJson i)) = .ok (some i) := by
  have hoptional : Tree.optional instant (Tree.ofJson none (timeJson i)) =
      (instant (Tree.ofJson none (timeJson i))).map some := rfl
  rw [hoptional, instant_timeJson h]
  rfl

theorem count_eq {n : Nat} (h : n ≤ Json.maxWhole) : count (.scalar none (.int n)) = .ok n := by
  have hbound : n < Nat.pow 2 64 := by
    have hmax : Json.maxWhole = 18446744073709551615 := rfl
    have hpow : Nat.pow 2 64 = 18446744073709551616 := rfl
    omega
  rw [count, Tree.unsigned.eq_def]
  simp only
  rw [if_pos (by omega)]
  rfl

/-- Every member of the table passes its check. -/
theorem checkTable_members {t : Tally} (h : t.Lasting) : Tree.checkTable schema t.members = .ok () := by
  have htime (i : Instant) (hi : i.Shown) :
      ∃ o, Tree.optional instant (Tree.ofJson none (timeJson i)) = .ok o :=
    ⟨some i, optional_timeJson hi⟩
  simp only [members, Tree.checkTable_append]
  refine ⟨?_, ?_, ?_, ?_, ?_⟩
  · rw [Tree.checkTable_singleton (Tree.check (Tree.boolean .document)) rfl, Tree.check_eq_ok]
    exact ⟨t.active, rfl⟩
  · rw [Tree.checkTable_singleton (Tree.check count) rfl, Tree.check_eq_ok]
    exact ⟨t.counter, count_eq h.counter⟩
  · rw [Tree.checkTable_singleton (Tree.check count) rfl, Tree.check_eq_ok]
    exact ⟨t.cycles, count_eq h.cycles⟩
  · exact (checkTable_member (Tree.optional instant) rfl timeJson t.started).2 fun i hi => htime i (h.started i hi)
  · exact (checkTable_member (Tree.optional instant) rfl timeJson t.timestamp).2
      fun i hi => htime i (h.timestamp i hi)

/-- What each member of the table is read as. -/
theorem get_members {t : Tally} (h : t.Lasting) :
    (⟨t.members⟩ : Tree.Members).get "started" none (Tree.optional instant) = .ok t.started ∧
      (⟨t.members⟩ : Tree.Members).get "timestamp" none (Tree.optional instant) = .ok t.timestamp ∧
      (⟨t.members⟩ : Tree.Members).get "counter" 0 count = .ok t.counter ∧
      (⟨t.members⟩ : Tree.Members).get "cycles" 0 count = .ok t.cycles ∧
      (⟨t.members⟩ : Tree.Members).get "active" false (Tree.boolean .document) = .ok t.active := by
  obtain ⟨hstarted, htimestamp, hcounter, hcycles⟩ := h
  obtain ⟨started, timestamp, counter, cycles, active⟩ := t
  simp only [Tree.Members.get, Tree.Members.tree?, members, Tree.lookup_append, lookup_member, Tree.lookup]
  refine ⟨?_, ?_, ?_, ?_, ?_⟩
  · cases started with
    | none => rfl
    | some i => exact optional_timeJson (hstarted i rfl)
  · cases timestamp with
    | none => rfl
    | some i => exact optional_timeJson (htimestamp i rfl)
  · cases started <;> cases timestamp <;> exact count_eq hcounter
  · cases started <;> cases timestamp <;> exact count_eq hcycles
  · cases started <;> cases timestamp <;> rfl

/-- A tally comes back as it was. -/
theorem ofDocument_eq {t : Tally} (h : t.Lasting) : ofDocument t.toDocument = .ok t := by
  obtain ⟨hstarted, htimestamp, hcounter, hcycles, hactive⟩ := get_members h
  have htree : ofTree (.table none t.members) = .ok t := by
    have hrecord : Tree.record .document "HarvestState" schema 0 (.table none t.members) = .ok ⟨t.members⟩ :=
      Tree.record_table.2 ⟨checkTable_members h, rfl⟩
    rw [ofTree, hrecord]
    simp only [bind, Except.bind, hstarted, htimestamp, hcounter, hcycles, hactive]
    rfl
  rw [ofDocument, ofJson_toDocument, bind_eq_ok]
  exact ⟨_, Tree.record_wrapped.2 ⟨⟨t, htree⟩, rfl⟩, htree⟩

/-! ## What can be read -/

theorem shown_of_instant {t : Tree} {i : Instant} (h : instant t = .ok i) : i.Shown := by
  obtain ⟨raw, -, h⟩ := bind_eq_ok.1 h
  split at h
  · next hread =>
    cases h
    exact Stamp.shown_of_lenient hread
  · cases h

theorem shown_of_get {ms : Tree.Members} {name : String} {o : Option Instant}
    (h : ms.get name none (Tree.optional instant) = .ok o) : ∀ i ∈ o, i.Shown := by
  rintro i rfl
  rw [Tree.Members.get] at h
  split at h
  · rw [Tree.optional.eq_def] at h
    split at h
    · cases h
    · obtain ⟨i', hread, heq⟩ := map_eq_ok.1 h
      cases heq
      exact shown_of_instant hread
  · cases h

theorem le_of_count {t : Tree} {n : Nat} (h : count t = .ok n) : n ≤ Json.maxWhole := by
  have hmax : Json.maxWhole = 18446744073709551615 := rfl
  have hpow : Nat.pow 2 64 = 18446744073709551616 := rfl
  rw [count, Tree.unsigned.eq_def] at h
  split at h
  · next hdialect => cases hdialect
  · split at h
    · cases h
      omega
    · cases h
  · cases h

theorem le_of_get {ms : Tree.Members} {name : String} {n : Nat} (h : ms.get name 0 count = .ok n) :
    n ≤ Json.maxWhole := by
  rw [Tree.Members.get] at h
  split at h
  · exact le_of_count h
  · cases h
    exact Nat.zero_le _

/-- A tally that is read is stored again without loss. -/
theorem lasting_of_ofTree {tree : Tree} {t : Tally} (h : ofTree tree = .ok t) : t.Lasting := by
  obtain ⟨ms, -, h⟩ := bind_eq_ok.1 h
  obtain ⟨started, hstarted, h⟩ := bind_eq_ok.1 h
  obtain ⟨timestamp, htimestamp, h⟩ := bind_eq_ok.1 h
  obtain ⟨counter, hcounter, h⟩ := bind_eq_ok.1 h
  obtain ⟨cycles, hcycles, h⟩ := bind_eq_ok.1 h
  obtain ⟨active, -, h⟩ := bind_eq_ok.1 h
  cases h
  exact ⟨shown_of_get hstarted, shown_of_get htimestamp, le_of_get hcounter, le_of_get hcycles⟩

theorem lasting_of_ofDocument {doc : Json} {t : Tally} (h : ofDocument doc = .ok t) : t.Lasting := by
  obtain ⟨ms, -, h⟩ := bind_eq_ok.1 h
  split at h
  · exact lasting_of_ofTree h
  · cases h

end Harvesting.Tally
