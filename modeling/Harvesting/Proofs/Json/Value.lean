import Harvesting.Json.Reader

/-!
# JSON values in good order

* `Json.insert_lt`, `Json.insert_gt` — where a member goes;
* `Json.InWords` — the whole numbers that are kept exactly;
* `Json.Ranked` — the members of an object stand in the order of their names, each name once;
* `Json.Plain` — a value of ranked objects and whole numbers, which a reader does not find too deep;
* `Json.ordered_eq` — reordering leaves such a value as it is.
-/

namespace Harvesting.Json

/-! ## Objects in the order of their names -/

theorem insert_lt {name k : String} (h : name < k) (v w : Json) (r : List (String × Json)) :
    insert name v ((k, w) :: r) = (name, v) :: (k, w) :: r := by
  have hne : name ≠ k := by
    rintro rfl
    exact String.lt_irrefl _ h
  rw [insert, if_neg hne, if_pos h]

theorem insert_gt {name k : String} (h : k < name) (v w : Json) (r : List (String × Json)) :
    insert name v ((k, w) :: r) = (k, w) :: insert name v r := by
  have hne : name ≠ k := by
    rintro rfl
    exact String.lt_irrefl _ h
  rw [insert, if_neg hne, if_neg (String.lt_asymm h)]

/-- The members stand in the order of their names, and no name comes twice. -/
def Ranked (ms : List (String × Json)) : Prop := (ms.map (·.1)).Pairwise (· < ·)

/-- A member whose name comes after all others goes to the end. -/
theorem insert_last {name : String} {v : Json} {ms : List (String × Json)}
    (h : ∀ m ∈ ms, m.1 < name) : insert name v ms = ms ++ [(name, v)] := by
  induction ms with
  | nil => rfl
  | cons m ms ih =>
      obtain ⟨k, w⟩ := m
      rw [insert_gt (h (k, w) List.mem_cons_self), ih fun m hm => h m (List.mem_cons_of_mem _ hm)]
      rfl

theorem foldl_insert {before ms : List (String × Json)} (h : Ranked (before ++ ms)) :
    ms.foldl (fun members f => insert f.1 f.2 members) before = before ++ ms := by
  induction ms generalizing before with
  | nil => rw [List.foldl_nil, List.append_nil]
  | cons m ms ih =>
      have hbefore : ∀ b ∈ before, b.1 < m.1 := by
        intro b hb
        rw [Ranked, List.map_append, List.pairwise_append] at h
        exact h.2.2 b.1 (List.mem_map_of_mem hb) m.1 (List.mem_map_of_mem List.mem_cons_self)
      have hshift : before ++ m :: ms = before ++ [m] ++ ms := by simp
      rw [hshift] at h ⊢
      rw [List.foldl_cons, insert_last hbefore]
      exact ih h

theorem ofFields_eq {ms : List (String × Json)} (h : Ranked ms) : ofFields ms = .object ms :=
  congrArg object (foldl_insert h)

/-! ## Plain values -/

/-- The whole numbers that 64 bits hold, with or without a sign. -/
def InWords (n : Int) : Prop := -9223372036854775808 ≤ n ∧ n ≤ maxWhole

mutual

/--
The value has ranked objects and no numbers but whole ones of 64 bits, and under `level` others its
lists and objects are not nested too deep for a reader.
-/
def Plain (level : Nat) : Json → Prop
  | .real _ => False
  | .int n => InWords n
  | .array xs => level < maxDepth ∧ PlainItems (level + 1) xs
  | .object ms => level < maxDepth ∧ Ranked ms ∧ PlainMembers (level + 1) ms
  | _ => True

def PlainItems (level : Nat) : List Json → Prop
  | [] => True
  | x :: r => Plain level x ∧ PlainItems level r

def PlainMembers (level : Nat) : List (String × Json) → Prop
  | [] => True
  | (_, v) :: r => Plain level v ∧ PlainMembers level r

end

theorem plainMembers_append {level : Nat} {l r : List (String × Json)} :
    PlainMembers level (l ++ r) ↔ PlainMembers level l ∧ PlainMembers level r := by
  induction l with
  | nil => simp [PlainMembers]
  | cons m l ih =>
      obtain ⟨k, v⟩ := m
      simp only [List.cons_append, PlainMembers, ih, and_assoc]

/-! ## Whole values -/

mutual

/-- The value has ranked objects and no numbers but whole ones of 64 bits, however deep it is nested. -/
def Whole : Json → Prop
  | .real _ => False
  | .int n => InWords n
  | .array xs => WholeItems xs
  | .object ms => Ranked ms ∧ WholeMembers ms
  | _ => True

def WholeItems : List Json → Prop
  | [] => True
  | x :: r => Whole x ∧ WholeItems r

def WholeMembers : List (String × Json) → Prop
  | [] => True
  | (_, v) :: r => Whole v ∧ WholeMembers r

end

mutual

/-- How deep lists and objects are nested in each other. -/
def depth : Json → Nat
  | .array xs => depthItems xs + 1
  | .object ms => depthMembers ms + 1
  | _ => 0

def depthItems : List Json → Nat
  | [] => 0
  | x :: r => max (depth x) (depthItems r)

def depthMembers : List (String × Json) → Nat
  | [] => 0
  | (_, v) :: r => max (depth v) (depthMembers r)

end

/-- What holds of a value if it holds of its items or members holds of every value. -/
@[elab_as_elim]
theorem nestedInduction {motive : Json → Prop} (null : motive .null) (bool : ∀ b, motive (.bool b))
    (int : ∀ n, motive (.int n)) (real : ∀ x, motive (.real x)) (string : ∀ s, motive (.string s))
    (array : ∀ xs, (∀ x ∈ xs, motive x) → motive (.array xs))
    (object : ∀ ms, (∀ m ∈ ms, motive m.2) → motive (.object ms)) (v : Json) : motive v := by
  apply @Json.rec motive (fun xs => ∀ x ∈ xs, motive x) (fun ms => ∀ m ∈ ms, motive m.2) (fun m => motive m.2)
    null bool int real string array object
  case nil => exact nofun
  case cons =>
    intro x xs hx hxs
    exact List.forall_mem_cons.2 ⟨hx, hxs⟩
  case nil => exact nofun
  case cons =>
    intro m ms hm hms
    exact List.forall_mem_cons.2 ⟨hm, hms⟩
  case mk =>
    intro k v hv
    exact hv

theorem wholeItems_iff {xs : List Json} : WholeItems xs ↔ ∀ x ∈ xs, Whole x := by
  induction xs with
  | nil => simp [WholeItems]
  | cons x xs ih => rw [WholeItems, ih, List.forall_mem_cons]

theorem wholeMembers_iff {ms : List (String × Json)} : WholeMembers ms ↔ ∀ m ∈ ms, Whole m.2 := by
  induction ms with
  | nil => simp [WholeMembers]
  | cons m ms ih =>
      obtain ⟨k, v⟩ := m
      rw [WholeMembers, ih, List.forall_mem_cons]

theorem depthItems_le {level n : Nat} (hlevel : level ≤ n) {xs : List Json} :
    level + depthItems xs ≤ n ↔ ∀ x ∈ xs, level + depth x ≤ n := by
  induction xs with
  | nil => simpa [depthItems] using hlevel
  | cons x xs ih => rw [depthItems, List.forall_mem_cons, ← ih, ← Nat.add_max_add_left, Nat.max_le]

theorem depthMembers_le {level n : Nat} (hlevel : level ≤ n) {ms : List (String × Json)} :
    level + depthMembers ms ≤ n ↔ ∀ m ∈ ms, level + depth m.2 ≤ n := by
  induction ms with
  | nil => simpa [depthMembers] using hlevel
  | cons m ms ih =>
      obtain ⟨k, v⟩ := m
      rw [depthMembers, List.forall_mem_cons, ← ih, ← Nat.add_max_add_left, Nat.max_le]

theorem plainItems_iff {level : Nat} {xs : List Json} : PlainItems level xs ↔ ∀ x ∈ xs, Plain level x := by
  induction xs with
  | nil => simp [PlainItems]
  | cons x xs ih => rw [PlainItems, ih, List.forall_mem_cons]

theorem plainMembers_iff {level : Nat} {ms : List (String × Json)} :
    PlainMembers level ms ↔ ∀ m ∈ ms, Plain level m.2 := by
  induction ms with
  | nil => simp [PlainMembers]
  | cons m ms ih =>
      obtain ⟨k, v⟩ := m
      rw [PlainMembers, ih, List.forall_mem_cons]

/-- A plain value is a whole one that is not nested too deep. -/
theorem plain_iff {level : Nat} (hlevel : level ≤ maxDepth) (v : Json) :
    Plain level v ↔ Whole v ∧ level + depth v ≤ maxDepth := by
  induction v using nestedInduction generalizing level with
  | array xs ih =>
      rw [Plain, Whole, depth, plainItems_iff, wholeItems_iff, ← Nat.add_assoc, Nat.add_right_comm]
      constructor
      · rintro ⟨hopen, hitems⟩
        have hparts x (hx : x ∈ xs) := (ih x hx hopen).1 (hitems x hx)
        exact ⟨fun x hx => (hparts x hx).1, (depthItems_le hopen).2 fun x hx => (hparts x hx).2⟩
      · rintro ⟨hwhole, hle⟩
        have hopen : level + 1 ≤ maxDepth := by omega
        exact ⟨hopen, fun x hx => (ih x hx hopen).2 ⟨hwhole x hx, (depthItems_le hopen).1 hle x hx⟩⟩
  | object ms ih =>
      rw [Plain, Whole, depth, plainMembers_iff, wholeMembers_iff, ← Nat.add_assoc, Nat.add_right_comm]
      constructor
      · rintro ⟨hopen, hranked, hmembers⟩
        have hparts m (hm : m ∈ ms) := (ih m hm hopen).1 (hmembers m hm)
        exact ⟨⟨hranked, fun m hm => (hparts m hm).1⟩, (depthMembers_le hopen).2 fun m hm => (hparts m hm).2⟩
      · rintro ⟨⟨hranked, hwhole⟩, hle⟩
        have hopen : level + 1 ≤ maxDepth := by omega
        exact ⟨hopen, hranked, fun m hm =>
          (ih m hm hopen).2 ⟨hwhole m hm, (depthMembers_le hopen).1 hle m hm⟩⟩
  | _ => simp [Plain, Whole, depth, hlevel]

/-! ## Order -/

theorem orderedItems_eq_map (xs : List Json) : orderedItems xs = xs.map ordered := by
  induction xs with
  | nil => rfl
  | cons x xs ih => rw [orderedItems, ih, List.map_cons]

theorem orderedMembers_eq_map (ms : List (String × Json)) :
    orderedMembers ms = ms.map fun m => (m.1, ordered m.2) := by
  induction ms with
  | nil => rfl
  | cons m ms ih => rw [orderedMembers, ih, List.map_cons]

/-- A whole value is in order as it stands. -/
theorem ordered_eq (v : Json) (h : Whole v) : ordered v = v := by
  induction v using nestedInduction with
  | array xs ih =>
      have hitems : xs.map ordered = xs := by
        rw [List.map_congr_left fun x hx => ih x hx (wholeItems_iff.1 h x hx), List.map_id']
      rw [ordered, orderedItems_eq_map, hitems]
  | object ms ih =>
      obtain ⟨hranked, hmembers⟩ := h
      have hmembers : ms.map (fun m => (m.1, ordered m.2)) = ms := by
        rw [List.map_congr_left fun m hm => congrArg (Prod.mk m.1) (ih m hm (wholeMembers_iff.1 hmembers m hm)),
          List.map_id']
      rw [ordered, orderedMembers_eq_map, hmembers, ofFields_eq hranked]
  | _ => rfl

end Harvesting.Json
