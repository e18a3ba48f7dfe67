import Harvesting.Proofs.Json.Token

/-!
# Texts of JSON values

A value has many texts: blanks may stand between any two tokens. The printer writes two of them.

* `Json.Writes` — the texts of a value;
* `Json.writes_pretty`, `Json.writes_compact` — both ways to print a whole value give a text of it;
* `Json.lineFeed_notMem_compact` — the compact text of a whole value has no line feed, whatever strings it
  holds.
-/

namespace Harvesting.Json

/-- What may stand between two tokens. -/
def Blanks (cs : List Char) : Prop := ∀ c ∈ cs, isSpace c = true

theorem blanks_nil : Blanks [] := nofun

theorem blanks_newline (level : Nat) : Blanks (newline level) := by
  intro c hc
  rcases List.mem_cons.1 hc with rfl | hc
  · rfl
  · rw [List.eq_of_mem_replicate hc]
    rfl

mutual

/-- The text is one of the value. -/
inductive Writes : Json → List Char → Prop
  | null : Writes .null "null".toList
  | true : Writes (.bool true) "true".toList
  | false : Writes (.bool false) "false".toList
  | int {n} : InWords n → Writes (.int n) (toString n).toList
  | string {s} : Writes (.string s) (quote s)
  | emptyList {b} : Blanks b → Writes (.array []) ('[' :: (b ++ [']']))
  | list {xs text} : WritesItems xs text → Writes (.array xs) ('[' :: (text ++ [']']))
  | emptyObject {b} : Blanks b → Writes (.object []) ('\x7b' :: (b ++ ['\x7d']))
  | object {ms text} : WritesMembers ms text → Writes (.object ms) ('\x7b' :: (text ++ ['\x7d']))

/-- The text is one of the items, with commas between them. -/
inductive WritesItems : List Json → List Char → Prop
  | last {x text b b'} : Blanks b → Writes x text → Blanks b' → WritesItems [x] (b ++ (text ++ b'))
  | more {x xs text more b b'} : Blanks b → Writes x text → Blanks b' → WritesItems xs more →
      WritesItems (x :: xs) (b ++ (text ++ (b' ++ ',' :: more)))

/-- The text is one of the members, each a name and a value, with commas between them. -/
inductive WritesMembers : List (String × Json) → List Char → Prop
  | last {k x text b b₁ b₂ b'} : Blanks b → Blanks b₁ → Blanks b₂ → Writes x text → Blanks b' →
      WritesMembers [(k, x)] (b ++ (quote k ++ (b₁ ++ ':' :: (b₂ ++ (text ++ b')))))
  | more {k x ms text more b b₁ b₂ b'} : Blanks b → Blanks b₁ → Blanks b₂ → Writes x text → Blanks b' →
      WritesMembers ms more →
      WritesMembers ((k, x) :: ms) (b ++ (quote k ++ (b₁ ++ ':' :: (b₂ ++ (text ++ (b' ++ ',' :: more))))))

end

/-! ## Printed values -/

section

variable {print : Json → List Char} {b b' : List Char}

/-- Items that are printed with the same blanks before each of them. -/
theorem writesItems_map (hb : Blanks b) (hb' : Blanks b') {xs : List Json} (hne : xs ≠ [])
    (h : ∀ x ∈ xs, Writes x (print x)) :
    WritesItems xs (commaSeparated (xs.map fun x => b ++ print x) ++ b') := by
  induction xs with
  | nil => exact absurd rfl hne
  | cons x xs ih =>
      have hx := h x List.mem_cons_self
      cases xs with
      | nil =>
          have hlast := WritesItems.last hb hx hb'
          rwa [← List.append_assoc] at hlast
      | cons y ys =>
          have hmore := ih (List.cons_ne_nil _ _) fun z hz => h z (List.mem_cons_of_mem _ hz)
          have htext := WritesItems.more hb hx blanks_nil hmore
          simpa [commaSeparated] using htext

/-- Members that are printed with the same blanks before each of them and after its colon. -/
theorem writesMembers_map {gap : List Char} (hb : Blanks b) (hgap : Blanks gap) (hb' : Blanks b')
    {ms : List (String × Json)} (hne : ms ≠ []) (h : ∀ m ∈ ms, Writes m.2 (print m.2)) :
    WritesMembers ms (commaSeparated (ms.map fun m => b ++ (quote m.1 ++ ':' :: (gap ++ print m.2))) ++ b') := by
  induction ms with
  | nil => exact absurd rfl hne
  | cons m ms ih =>
      obtain ⟨k, x⟩ := m
      have hx := h (k, x) List.mem_cons_self
      cases ms with
      | nil =>
          have hlast := WritesMembers.last (k := k) hb blanks_nil hgap hx hb'
          simpa [commaSeparated] using hlast
      | cons y ys =>
          have hmore := ih (List.cons_ne_nil _ _) fun z hz => h z (List.mem_cons_of_mem _ hz)
          have htext := WritesMembers.more (k := k) hb blanks_nil hgap hx blanks_nil hmore
          simpa [commaSeparated] using htext

end

theorem compactItems_eq_map (xs : List Json) : compactItems xs = xs.map compactChars := by
  induction xs with
  | nil => rfl
  | cons x xs ih => rw [compactItems, ih, List.map_cons]

theorem compactMembers_eq_map (ms : List (String × Json)) :
    compactMembers ms = ms.map fun m => quote m.1 ++ ':' :: compactChars m.2 := by
  induction ms with
  | nil => rfl
  | cons m ms ih => rw [compactMembers, ih, List.map_cons]

theorem prettyItems_eq_map (level : Nat) (xs : List Json) :
    prettyItems level xs = xs.map (prettyChars level) := by
  induction xs with
  | nil => rfl
  | cons x xs ih => rw [prettyItems, ih, List.map_cons]

theorem prettyMembers_eq_map (level : Nat) (ms : List (String × Json)) :
    prettyMembers level ms = ms.map fun m => quote m.1 ++ ':' :: ' ' :: prettyChars level m.2 := by
  induction ms with
  | nil => rfl
  | cons m ms ih => rw [prettyMembers, ih, List.map_cons]

theorem writes_compact (v : Json) (h : Whole v) : Writes v (compactChars v) := by
  induction v using nestedInduction with
  | null => exact .null
  | bool b =>
      cases b with
      | true => exact .true
      | false => exact .false
  | int n => exact .int h
  | real x => exact h.elim
  | string s => exact .string
  | array xs ih =>
      rw [compactChars, compactItems_eq_map]
      cases xs with
      | nil => exact .emptyList blanks_nil
      | cons x xs =>
          have hitems := writesItems_map blanks_nil blanks_nil (List.cons_ne_nil x xs)
            fun y hy => ih y hy (wholeItems_iff.1 h y hy)
          rw [List.append_nil] at hitems
          exact .list hitems
  | object ms ih =>
      rw [compactChars, compactMembers_eq_map]
      cases ms with
      | nil => exact .emptyObject blanks_nil
      | cons m ms =>
          have hmembers := writesMembers_map blanks_nil blanks_nil blanks_nil (List.cons_ne_nil m ms)
            fun y hy => ih y hy (wholeMembers_iff.1 h.2 y hy)
          rw [List.append_nil] at hmembers
          exact .object hmembers

/-- Lines between brackets, the first of them there. -/
theorem block_map {α : Type} {opening closing : Char} {level : Nat} (line : α → List Char) (a : α) (as : List α) :
    block opening closing level ((a :: as).map line) = opening ::
      ((commaSeparated ((a :: as).map fun x => newline (level + 1) ++ line x) ++ newline level) ++ [closing]) := by
  rw [List.map_cons, block.eq_def, ← List.map_cons, List.map_map]
  rfl

theorem writes_pretty (level : Nat) (v : Json) (h : Whole v) : Writes v (prettyChars level v) := by
  induction v using nestedInduction generalizing level with
  | array xs ih =>
      cases xs with
      | nil => exact .emptyList blanks_nil
      | cons x xs =>
          have hitems := writesItems_map (blanks_newline (level + 1)) (blanks_newline level) (List.cons_ne_nil x xs)
            fun y hy => ih y hy (level + 1) (wholeItems_iff.1 h y hy)
          rw [prettyChars, prettyItems_eq_map, block_map]
          exact .list hitems
  | object ms ih =>
      cases ms with
      | nil => exact .emptyObject blanks_nil
      | cons m ms =>
          have hcolon : Blanks [' '] := by
            intro c hc
            rw [List.mem_singleton.1 hc]
            rfl
          have hmembers := writesMembers_map (blanks_newline (level + 1)) hcolon (blanks_newline level)
            (List.cons_ne_nil m ms) fun y hy => ih y hy (level + 1) (wholeMembers_iff.1 h.2 y hy)
          rw [prettyChars, prettyMembers_eq_map, block_map]
          exact .object hmembers
  | _ => exact writes_compact _ h

/-! ## No line feeds -/

theorem lineFeed_notMem_escapeChar (c : Char) : '\n' ∉ escapeChar c := by
  have hdigit : ∀ n < 16, '\n' ≠ hexDigit n := by decide
  unfold escapeChar
  split
  · decide
  split
  · decide
  split
  · decide
  split
  · decide
  split
  · decide
  split
  · decide
  split
  · decide
  split
  · next hcontrol =>
    simp only [List.mem_cons, List.not_mem_nil, or_false, not_or]
    exact ⟨by decide, by decide, by decide, by decide, hdigit _ (by omega), hdigit _ (by omega)⟩
  · next hline _ _ _ =>
    exact fun h => hline (List.mem_singleton.1 h).symm

theorem lineFeed_notMem_quote (s : String) : '\n' ∉ quote s := by
  rw [quote, List.cons_append, List.mem_cons, List.mem_append, List.mem_singleton]
  rintro (h | h | h)
  · exact absurd h (by decide)
  · obtain ⟨c, -, hc⟩ := List.mem_flatMap.1 h
    exact lineFeed_notMem_escapeChar c hc
  · exact absurd h (by decide)

theorem lineFeed_notMem_int (n : Int) : '\n' ∉ (toString n).toList := by
  rw [toList_toString_int, wholeText, List.mem_append]
  rintro (h | h)
  · split at h
    · exact absurd h (by decide)
    · cases h
  · exact absurd (Nat.isDigit_of_mem_toDigits (by omega) (by omega) h) (by decide)

theorem notMem_commaSeparated {c : Char} (hc : c ≠ ',') :
    ∀ {texts : List (List Char)}, (∀ t ∈ texts, c ∉ t) → c ∉ commaSeparated texts
  | [], _ => nofun
  | [t], h => h t List.mem_cons_self
  | t :: u :: r, h => by
    rw [commaSeparated, List.mem_append, List.mem_cons]
    rintro (hmem | hmem | hmem)
    · exact h t List.mem_cons_self hmem
    · exact hc hmem
    · exact notMem_commaSeparated hc (fun t ht => h t (List.mem_cons_of_mem _ ht)) hmem

/-- The printer breaks no line between the tokens, and a line feed in a string is escaped. -/
theorem lineFeed_notMem_compact (v : Json) (h : Whole v) : '\n' ∉ compactChars v := by
  induction v using nestedInduction with
  | null => decide
  | bool b => cases b <;> decide
  | int n => exact lineFeed_notMem_int n
  | real x => exact h.elim
  | string s => exact lineFeed_notMem_quote s
  | array xs ih =>
      have hitems : '\n' ∉ commaSeparated (xs.map compactChars) := by
        apply notMem_commaSeparated (by decide)
        intro t ht
        obtain ⟨x, hx, rfl⟩ := List.mem_map.1 ht
        exact ih x hx (wholeItems_iff.1 h x hx)
      rw [compactChars, compactItems_eq_map, List.cons_append, List.mem_cons, List.mem_append, List.mem_singleton]
      rintro (hmem | hmem | hmem)
      · exact absurd hmem (by decide)
      · exact hitems hmem
      · exact absurd hmem (by decide)
  | object ms ih =>
      have hmembers : '\n' ∉ commaSeparated (ms.map fun m => quote m.1 ++ ':' :: compactChars m.2) := by
        apply notMem_commaSeparated (by decide)
        intro t ht
        obtain ⟨m, hm, rfl⟩ := List.mem_map.1 ht
        rw [List.mem_append, List.mem_cons]
        rintro (hmem | hmem | hmem)
        · exact lineFeed_notMem_quote _ hmem
        · exact absurd hmem (by decide)
        · exact ih m hm (wholeMembers_iff.1 h.2 m hm) hmem
      rw [compactChars, compactMembers_eq_map, List.cons_append, List.mem_cons, List.mem_append, List.mem_singleton]
      rintro (hmem | hmem | hmem)
      · exact absurd hmem (by decide)
      · exact hmembers hmem
      · exact absurd hmem (by decide)

end Harvesting.Json
