import Harvesting.Progress.Checkpoint
import Harvesting.Proofs.Json.Value
import Harvesting.Proofs.Time.Datestamp
import Harvesting.Protocol.Request

/-!
# Checkpoints are read as they were stored

* `Window.Whole`, `Window.Datable`, `Window.Dated` — bounds without fractions, and bounds that can be
  written;
* `Checkpoint.plain_toDocument` — its document is written and read without loss;
* `Checkpoint.ofDocument_dated` — a checkpoint with such bounds comes back as it was;
* `Checkpoint.eq_of_ofDocument` — whatever its status and its years, a checkpoint that comes back at
  all is the one that was stored;
* `Checkpoint.window_of_ofDocument` — the same for bounds that are not whole, as far as they are written.
-/

namespace Harvesting

/-! ## Tables in parts -/

namespace Tree

theorem lookup_append (name : String) (l r : List (String × Tree)) :
    lookup name (l ++ r) = (lookup name r).or (lookup name l) := by
  induction l with
  | nil => simp [lookup]
  | cons m l ih =>
      obtain ⟨k, v⟩ := m
      simp only [List.cons_append, lookup, ih]
      cases lookup name r with
      | none => rfl
      | some w => rfl

theorem ofJsonMembers_append (o : Option String) (l r : List (String × Json)) :
    ofJsonMembers o (l ++ r) = ofJsonMembers o l ++ ofJsonMembers o r := by
  induction l with
  | nil => rfl
  | cons m l ih =>
      obtain ⟨k, v⟩ := m
      simp only [List.cons_append, ofJsonMembers, ih]

theorem checkTable_append {schema : Schema} {l r : List (String × Tree)} :
    checkTable schema (l ++ r) = .ok () ↔ checkTable schema l = .ok () ∧ checkTable schema r = .ok () := by
  induction l with
  | nil => simp [checkTable]
  | cons m l ih =>
      obtain ⟨k, v⟩ := m
      rw [List.cons_append, checkTable, checkTable]
      cases schema.find? (·.1 = k) with
      | none => exact ih
      | some f =>
          cases hread : (f.2 v).mapError (·.underName k) with
          | error e => simp [hread, bind, Except.bind]
          | ok _ => simpa [hread, bind, Except.bind] using ih

theorem checkTable_singleton {schema : Schema} {k : String} (reader : Tree → Except Mismatch Unit)
    (hfind : schema.find? (·.1 = k) = some (k, reader)) (v : Tree) :
    checkTable schema [(k, v)] = .ok () ↔ reader v = .ok () := by
  rw [checkTable, hfind]
  constructor
  · intro h
    obtain ⟨_, hread, -⟩ := bind_eq_ok.1 h
    exact mapError_eq_ok.1 hread
  · intro h
    exact bind_eq_ok.2 ⟨(), mapError_eq_ok.2 h, rfl⟩

theorem check_eq_ok {α : Type} {reader : Tree → Except Mismatch α} {t : Tree} :
    check reader t = .ok () ↔ ∃ a, reader t = .ok a := by
  rw [check, map_eq_ok]
  simp

end Tree

/-! ## Records of tables -/

namespace Tree

variable {d : Dialect} {name : String} {schema : Schema} {ms : List (String × Tree)}

/-- A table without members that must be there is a record when it passes its checks. -/
theorem record_table {r : Members} :
    record d name schema 0 (.table none ms) = .ok r ↔ checkTable schema ms = .ok () ∧ r = ⟨ms⟩ := by
  rw [record, bind_eq_ok]
  constructor
  · rintro ⟨_, hcheck, hr⟩
    cases hr
    exact ⟨hcheck, rfl⟩
  · rintro ⟨hcheck, rfl⟩
    exact ⟨(), hcheck, rfl⟩

/-- A table of one member that must be there is a record when the reader takes the member. -/
theorem record_wrapped {α : Type} {part : String} {reader : Tree → Except Mismatch α} {t : Tree} {r : Members} :
    record d name [(part, check reader)] 1 (.table none [(part, t)]) = .ok r ↔
      (∃ a, reader t = .ok a) ∧ r = ⟨[(part, t)]⟩ := by
  have hfind : [(part, check reader)].find? (·.1 = part) = some (part, check reader) := by simp
  have hthere : ([(part, check reader)].take 1).find? (fun f => (lookup f.1 [(part, t)]).isNone) = none := by
    simp [lookup]
  rw [record, hthere, bind_eq_ok, ← check_eq_ok, ← checkTable_singleton (check reader) hfind]
  constructor
  · rintro ⟨_, hcheck, hr⟩
    cases hr
    exact ⟨hcheck, rfl⟩
  · rintro ⟨hcheck, rfl⟩
    exact ⟨(), hcheck, rfl⟩

end Tree

/-! ## Bounds -/

/-- The bounds of a window have no fractions. -/
def Window.Whole (w : Window) : Prop := (∀ t ∈ w.lower, t.Whole) ∧ ∀ t ∈ w.upper, t.Whole

/-- The bounds of a window can be written with years of four digits. -/
def Window.Datable (w : Window) : Prop := (∀ t ∈ w.lower, t.Datable) ∧ ∀ t ∈ w.upper, t.Datable

/-- The bounds of a window are whole seconds, leap seconds among them, in years of four digits. -/
def Window.Dated (w : Window) : Prop := (∀ t ∈ w.lower, t.Dated) ∧ ∀ t ∈ w.upper, t.Dated

theorem Window.Datable.dated {w : Window} (h : w.Datable) : w.Dated :=
  ⟨fun t ht => (h.1 t ht).dated, fun t ht => (h.2 t ht).dated⟩

theorem Window.Datable.whole {w : Window} (h : w.Datable) : w.Whole := by
  constructor
  · intro t ht
    exact (h.1 t ht).whole
  · intro t ht
    exact (h.2 t ht).whole

namespace Tree

/-- A text that is not blank is a bound when it is a datestamp. -/
theorem bound_string {o : Option String} {raw : String} (h : Text.trim raw.toList ≠ []) :
    bound .document (.scalar o (.string raw)) =
      ((Datestamp.parse raw).map some).mapError fun f => Mismatch.of .document (.custom f.message) := by
  have hstring : optional (string .document "a string") (.scalar o (.string raw)) = .ok (some raw) := rfl
  rw [bound, hstring]
  simp only [bind, Except.bind, h, if_false]
  cases Datestamp.parse raw <;> rfl

theorem trim_format_ne_nil (t : Instant) : Text.trim (Datestamp.format t).toList ≠ [] := by
  obtain ⟨c, r, hcs, -⟩ := Datestamp.head_yearText (Date.ofDays t.day).year
  rw [Datestamp.trim_format, Datestamp.format, Stamp.toList_secondsText, hcs]
  exact List.cons_ne_nil _ _

end Tree

namespace Checkpoint

/-- The window that the page belongs to. -/
def window (c : Checkpoint) : Window := ⟨c.lower, c.upper⟩

/-! ## The stored document -/

/-- The members of the part about the page, in the order of their names. -/
def fields (c : Checkpoint) : List (String × Json) :=
  member "last_error" Json.string c.error ++
    (member "last_from" (fun t => .string (Datestamp.format t)) c.lower ++
    ([("last_http_status", .int c.status)] ++
    (member "last_until" (fun t => .string (Datestamp.format t)) c.upper ++
    member "resumptionToken" Json.string c.token)))

theorem toJson_eq (c : Checkpoint) : c.toJson = .object c.fields := by
  obtain ⟨token, lower, upper, error, status⟩ := c
  -- each optional member is there or not; in every case the others are inserted around it by name
  have hnil (name : String) (v : Json) : Json.insert name v [] = [(name, v)] := rfl
  cases token <;> cases lower <;> cases upper <;> cases error <;>
    simp (disch := decide) only [toJson, fields, Json.ofFields, member, List.nil_append, List.cons_append,
      List.foldl_cons, List.foldl_nil, hnil, Json.insert_lt, Json.insert_gt]

theorem sublist_member {α : Type} (name : String) (f : α → Json) (o : Option α) :
    ((member name f o).map (·.1)).Sublist [name] := by
  cases o with
  | none => exact List.nil_sublist _
  | some a => exact .refl _

theorem plainMembers_member {α : Type} {level : Nat} {name : String} {f : α → Json} {o : Option α}
    (h : ∀ a, Json.Plain level (f a)) : Json.PlainMembers level (member name f o) := by
  cases o with
  | none => trivial
  | some a => exact ⟨h a, trivial⟩

/-- The tree of a member that may be left out. -/
theorem lookup_member {α : Type} (name key : String) (f : α → Json) (o : Option α) :
    Tree.lookup key (Tree.ofJsonMembers none (member name f o)) =
      if name = key then o.map fun a => Tree.ofJson none (f a) else none := by
  cases o with
  | none => simp [member, Tree.ofJsonMembers, Tree.lookup]
  | some a => simp [member, Tree.ofJsonMembers, Tree.lookup]

/-- A member passes its check when its reader takes it. -/
theorem checkTable_member {α β : Type} {schema : Tree.Schema} {name : String}
    (reader : Tree → Except Tree.Mismatch β) (hfind : schema.find? (·.1 = name) = some (name, Tree.check reader))
    (f : α → Json) (o : Option α) :
    Tree.checkTable schema (Tree.ofJsonMembers none (member name f o)) = .ok () ↔
      ∀ a ∈ o, ∃ b, reader (Tree.ofJson none (f a)) = .ok b := by
  cases o with
  | none => simp [member, Tree.ofJsonMembers, Tree.checkTable]
  | some a =>
      simp only [member, Tree.ofJsonMembers, Tree.checkTable_singleton _ hfind, Tree.check_eq_ok,
        Option.mem_some_iff, forall_eq']

/-- What a bound is read as after it was written. -/
def rereadBound : Option Instant → Except Tree.Mismatch (Option Instant)
  | some t => Tree.bound .document (.scalar none (.string (Datestamp.format t)))
  | none => .ok none

/-- The members of the part about the page, as trees. -/
def members (c : Checkpoint) : List (String × Tree) :=
  Tree.ofJsonMembers none (member "last_error" Json.string c.error) ++
    (Tree.ofJsonMembers none (member "last_from" (fun t => .string (Datestamp.format t)) c.lower) ++
    ([("last_http_status", .scalar none (.int c.status))] ++
    (Tree.ofJsonMembers none (member "last_until" (fun t => .string (Datestamp.format t)) c.upper) ++
    Tree.ofJsonMembers none (member "resumptionToken" Json.string c.token))))

theorem ofJson_toJson (c : Checkpoint) : Tree.ofJson none c.toJson = .table none c.members := by
  rw [toJson_eq, fields, Tree.ofJson]
  simp only [Tree.ofJsonMembers_append]
  rfl

/-- The table of a checkpoint is checked as its bounds and its status are. -/
theorem checkTable_members {c : Checkpoint} :
    Tree.checkTable schema c.members = .ok () ↔ (∃ l, rereadBound c.lower = .ok l) ∧
      (∃ n, Tree.signed32 (.scalar none (.int c.status)) = .ok n) ∧ ∃ u, rereadBound c.upper = .ok u := by
  have hreread (o : Option Instant) : (∃ l, rereadBound o = .ok l) ↔ ∀ t ∈ o, ∃ l,
      Tree.bound .document (Tree.ofJson none (.string (Datestamp.format t))) = .ok l := by
    cases o with
    | none => simp [rereadBound]
    | some t => simp [rereadBound, Tree.ofJson]
  have htext (s : String) : ∃ o, text (Tree.ofJson none (.string s)) = .ok o := ⟨some s, rfl⟩
  have hstatus : Tree.checkTable schema [("last_http_status", .scalar none (.int c.status))] = .ok () ↔
      ∃ n, Tree.signed32 (.scalar none (.int c.status)) = .ok n := by
    rw [Tree.checkTable_singleton (Tree.check Tree.signed32) rfl, Tree.check_eq_ok]
  rw [members, Tree.checkTable_append, Tree.checkTable_append, Tree.checkTable_append,
    Tree.checkTable_append, checkTable_member text rfl,
    checkTable_member (Tree.bound .document) rfl, hstatus,
    checkTable_member (Tree.bound .document) rfl, checkTable_member text rfl,
    hreread, hreread]
  simp only [htext, implies_true, true_and, and_true]

/-- What each member of the table is read as. -/
theorem get_members (c : Checkpoint) :
    (⟨c.members⟩ : Tree.Members).get "resumptionToken" none text = .ok c.token ∧
      (⟨c.members⟩ : Tree.Members).get "last_from" none (Tree.bound .document) = rereadBound c.lower ∧
      (⟨c.members⟩ : Tree.Members).get "last_until" none (Tree.bound .document) = rereadBound c.upper ∧
      (⟨c.members⟩ : Tree.Members).get "last_error" none text = .ok c.error ∧
      (⟨c.members⟩ : Tree.Members).get "last_http_status" noResponse Tree.signed32 =
        Tree.signed32 (.scalar none (.int c.status)) := by
  obtain ⟨token, lower, upper, error, status⟩ := c
  simp only [Tree.Members.get, Tree.Members.tree?, members, Tree.lookup_append, lookup_member,
    Tree.lookup]
  refine ⟨?_, ?_, ?_, ?_, ?_⟩
  · cases token <;> rfl
  · cases lower <;> rfl
  · cases upper <;> rfl
  · cases error <;> rfl
  · rfl

theorem ofDocument_toDocument (c : Checkpoint) (c' : Checkpoint) :
    ofDocument c.toDocument = .ok c' ↔ ofTree (.table none c.members) = .ok c' := by
  have htree : Tree.ofJson none c.toDocument = .table none [("oai", .table none c.members)] := by
    rw [← ofJson_toJson]
    rfl
  rw [ofDocument, htree, bind_eq_ok]
  constructor
  · rintro ⟨r, hr, hc⟩
    obtain ⟨-, rfl⟩ := Tree.record_wrapped.1 hr
    exact hc
  · intro hc
    -- the outer table is checked by reading the inner one, which is what is read after it
    exact ⟨_, Tree.record_wrapped.2 ⟨⟨c', hc⟩, rfl⟩, hc⟩

/-- A checkpoint is read back member by member. -/
theorem ofDocument_toDocument_eq_ok {c c' : Checkpoint} :
    ofDocument c.toDocument = .ok c' ↔ c'.token = c.token ∧ rereadBound c.lower = .ok c'.lower ∧
      rereadBound c.upper = .ok c'.upper ∧ c'.error = c.error ∧
      Tree.signed32 (.scalar none (.int c.status)) = .ok c'.status := by
  obtain ⟨htoken, hlower, hupper, herror, hstatus⟩ := get_members c
  rw [ofDocument_toDocument, ofTree, bind_eq_ok]
  constructor
  · rintro ⟨r, hr, h⟩
    obtain ⟨-, rfl⟩ := Tree.record_table.1 hr
    rw [htoken, hlower, hupper, herror, hstatus] at h
    -- the members in the order in which they are read
    obtain ⟨_, ht, h⟩ := bind_eq_ok.1 h
    obtain ⟨_, hl, h⟩ := bind_eq_ok.1 h
    obtain ⟨_, hu, h⟩ := bind_eq_ok.1 h
    obtain ⟨_, he, h⟩ := bind_eq_ok.1 h
    obtain ⟨_, hs, h⟩ := bind_eq_ok.1 h
    cases ht
    cases he
    cases h
    exact ⟨rfl, hl, hu, rfl, hs⟩
  · rintro ⟨ht, hl, hu, he, hs⟩
    refine ⟨⟨c.members⟩, Tree.record_table.2 ⟨checkTable_members.2 ⟨⟨_, hl⟩, ⟨_, hs⟩, _, hu⟩, rfl⟩, ?_⟩
    rw [htoken, hlower, hupper, herror, hstatus, hl, hu, hs, ← ht, ← he]
    rfl

/-! ## The results -/

theorem rereadBound_dated {o : Option Instant} (h : ∀ t ∈ o, t.Dated) : rereadBound o = .ok o := by
  cases o with
  | none => rfl
  | some t =>
      rw [rereadBound, Tree.bound_string (Tree.trim_format_ne_nil t), Datestamp.parse_dated (h t rfl)]
      rfl

theorem eq_of_rereadBound {o o' : Option Instant} (h : ∀ t ∈ o, t.Whole)
    (hread : rereadBound o = .ok o') : o' = o := by
  cases o with
  | none =>
      cases hread
      rfl
  | some t =>
      rw [rereadBound, Tree.bound_string (Tree.trim_format_ne_nil t), mapError_eq_ok, map_eq_ok] at hread
      obtain ⟨t', hparse, rfl⟩ := hread
      rw [Datestamp.eq_of_parse_format (h t rfl) hparse]

/-- The statuses that a stored checkpoint can have. -/
def Storable (status : Int) : Prop := -2147483648 ≤ status ∧ status ≤ 2147483647

theorem signed32_eq_ok {status n : Int} :
    Tree.signed32 (.scalar none (.int status)) = .ok n ↔ Storable status ∧ n = status := by
  rw [Tree.signed32, Storable]
  split
  · next h => simp [h, eq_comm]
  · next h => simp [h]

theorem ranked_fields (c : Checkpoint) : Json.Ranked c.fields := by
  have hnames : (c.fields.map (·.1)).Sublist
      ["last_error", "last_from", "last_http_status", "last_until", "resumptionToken"] := by
    simp only [fields, List.map_append]
    exact (sublist_member _ _ _).append ((sublist_member _ _ _).append ((List.Sublist.refl _).append
      ((sublist_member _ _ _).append (sublist_member _ _ _))))
  exact List.Pairwise.sublist hnames (by decide)

/-- The document of a checkpoint is plain. -/
theorem plain_toDocument {c : Checkpoint} (hstatus : Storable c.status) : Json.Plain 0 c.toDocument := by
  have hwords : Json.InWords c.status := by
    have hmax : Json.maxWhole = 18446744073709551615 := rfl
    unfold Storable at hstatus
    unfold Json.InWords
    omega
  have hfields : Json.PlainMembers 2 c.fields := by
    simp only [fields, Json.plainMembers_append]
    exact ⟨plainMembers_member fun _ => trivial, plainMembers_member fun _ => trivial, ⟨hwords, trivial⟩,
      plainMembers_member fun _ => trivial, plainMembers_member fun _ => trivial⟩
  have hdocument : c.toDocument = .object [("oai", .object c.fields)] := by
    rw [← toJson_eq]
    rfl
  rw [hdocument]
  exact ⟨by decide, List.pairwise_singleton _ _, ⟨by decide, ranked_fields c, hfields⟩, trivial⟩

/-- A checkpoint whose bounds are whole seconds comes back as it was. -/
theorem ofDocument_dated {c : Checkpoint} (h : c.window.Dated) (hstatus : Storable c.status) :
    ofDocument c.toDocument = .ok c :=
  ofDocument_toDocument_eq_ok.2 ⟨rfl, rereadBound_dated h.1, rereadBound_dated h.2, rfl,
    signed32_eq_ok.2 ⟨hstatus, rfl⟩⟩

/-- A checkpoint whose bounds can be written comes back as it was. -/
theorem ofDocument_eq {c : Checkpoint} (h : c.window.Datable) (hstatus : Storable c.status) :
    ofDocument c.toDocument = .ok c := ofDocument_dated h.dated hstatus

/-- A checkpoint that comes back at all is the one that was stored. -/
theorem eq_of_ofDocument {c c' : Checkpoint} (h : c.window.Whole) (hread : ofDocument c.toDocument = .ok c') :
    c' = c := by
  obtain ⟨htoken, hlower, hupper, herror, hstatus⟩ := ofDocument_toDocument_eq_ok.1 hread
  obtain ⟨token, lower, upper, error, status⟩ := c'
  obtain rfl : lower = c.lower := eq_of_rereadBound h.1 hlower
  obtain rfl : upper = c.upper := eq_of_rereadBound h.2 hupper
  obtain rfl : status = c.status := (signed32_eq_ok.1 hstatus).2
  subst htoken herror
  rfl

end Checkpoint

/-- What is left of the bounds of a window when they are written. -/
def Window.written (w : Window) : Window := ⟨w.lower.map Instant.written, w.upper.map Instant.written⟩

theorem Window.written_written (w : Window) : w.written.written = w.written := by
  have hbound : Instant.written ∘ Instant.written = Instant.written := funext Instant.written_written
  simp [written, hbound]

namespace Checkpoint

theorem written_of_rereadBound {o o' : Option Instant} (hread : rereadBound o = .ok o') :
    o' = o.map Instant.written := by
  cases o with
  | none =>
      cases hread
      rfl
  | some t =>
      rw [rereadBound, Tree.bound_string (Tree.trim_format_ne_nil t), mapError_eq_ok, map_eq_ok] at hread
      obtain ⟨t', hparse, rfl⟩ := hread
      rw [Datestamp.written_of_parse_format hparse]
      rfl

/-- A checkpoint that comes back at all has what was left of its window. -/
theorem window_of_ofDocument {c c' : Checkpoint} (hread : ofDocument c.toDocument = .ok c') :
    c'.window = c.window.written := by
  obtain ⟨-, hlower, hupper, -⟩ := ofDocument_toDocument_eq_ok.1 hread
  rw [window, written_of_rereadBound hlower, written_of_rereadBound hupper]
  rfl

end Checkpoint

end Harvesting
