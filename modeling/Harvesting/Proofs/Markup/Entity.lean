import Harvesting.Markup.Entity
import Harvesting.Proofs.Except
import Harvesting.Proofs.Markup.Piece

/-!
# Entities that are cut off

Which texts can be unescaped, told by their shape. A text that is cut off can be unescaped, like the
whole of it, unless the cut is inside an entity.

* `Legible` — texts whose entities are closed and name a character;
* `unescape_ok_iff` — these are the ones that can be unescaped; `legible_strip` — with their blanks or
  without;
* `EndsInEntity`, `Legible.cut_iff` — a legible text that is cut off;
* `Legible.exists_unescaped`, `unescape_strip` — what a legible text stands for does not depend on where it
  stands, and blanks around it stand for themselves.
-/

namespace Harvesting.Markup

/-- All entities of the text are closed and name a character. -/
inductive Legible : List Char → Prop where
  | nil : Legible []
  | char {c : Char} {r : List Char} : c ≠ '&' → Legible r → Legible (c :: r)
  | entity {name r : List Char} : (∀ c ∈ name, c ≠ '&' ∧ c ≠ ';') → (∃ c, resolve 0 name = .ok c) →
      Legible r → Legible ('&' :: (name ++ ';' :: r))

variable {cs pre : List Char}

/-! ## Unescaping -/

/-- Where an entity stands is of interest only when it is a fault. -/
theorem resolve_ok {name : List Char} {n : Nat} {c : Char} (h : resolve n name = .ok c) (m : Nat) :
    resolve m name = .ok c := by
  unfold resolve at h ⊢
  split at h
  · exact h
  · split at h
    · exact h
    · cases h

theorem untilMark_entity {name r : List Char} (hname : ∀ c ∈ name, c ≠ '&' ∧ c ≠ ';') :
    untilMark (name ++ ';' :: r) = (name, ';' :: r) := by
  have hall : ∀ c ∈ name, (decide (c ≠ '&') && decide (c ≠ ';')) = true := by
    intro c hc
    simpa using hname c hc
  rw [untilMark, List.takeWhile_append_of_pos hall, List.dropWhile_append_of_pos hall]
  simp

theorem untilMark_split (cs : List Char) :
    (untilMark cs).1 ++ (untilMark cs).2 = cs ∧ ∀ c ∈ (untilMark cs).1, c ≠ '&' ∧ c ≠ ';' := by
  refine ⟨List.takeWhile_append_dropWhile, ?_⟩
  intro c hc
  simpa using List.all_eq_true.1 List.all_takeWhile c hc

section

variable {total offset : Nat}

theorem unescapeFrom_char {c : Char} (hc : c ≠ '&') (r : List Char) :
    unescapeFrom total offset (c :: r) = do
      return c :: (← unescapeFrom total (offset + c.utf8Size) r) := by
  rw [unescapeFrom.eq_2, if_neg hc]

theorem unescapeFrom_entity {r rest : List Char} (h : (untilMark r).2 = ';' :: rest) :
    unescapeFrom total offset ('&' :: r) = do
      let c ← resolve (offset + 1) (untilMark r).1
      return c :: (← unescapeFrom total (offset + 2 + Utf8.length (untilMark r).1) rest) := by
  rw [unescapeFrom.eq_2, if_pos rfl]
  split
  · next h' =>
    cases h.symm.trans h'
    rfl
  · next h' => exact absurd h (h' rest)

theorem unescapeFrom_open {r : List Char} (h : ∀ rest, (untilMark r).2 ≠ ';' :: rest) :
    unescapeFrom total offset ('&' :: r) = .error (.ampersand offset total) := by
  rw [unescapeFrom.eq_2, if_pos rfl]
  split
  · next h' => exact absurd h' (h _)
  · rfl

theorem legible_of_unescapeFrom {out : List Char} (h : unescapeFrom total offset cs = .ok out) :
    Legible cs := by
  induction offset, cs using unescapeFrom.induct generalizing out with
  | case1 => exact .nil
  | case2 offset r rest hrest name =>
      rename_i ih
      rw [unescapeFrom_entity hrest] at h
      obtain ⟨c, hc, h⟩ := bind_eq_ok.1 h
      obtain ⟨out', hout, -⟩ := bind_eq_ok.1 h
      obtain ⟨hsplit, hname⟩ := untilMark_split r
      rw [← hsplit, hrest]
      exact .entity hname ⟨c, resolve_ok hc 0⟩ (ih hout)
  | case3 offset r hopen =>
      rw [unescapeFrom_open hopen] at h
      cases h
  | case4 offset c r hc ih =>
      rw [unescapeFrom_char hc] at h
      obtain ⟨out', hout, -⟩ := bind_eq_ok.1 h
      exact .char hc (ih hout)

theorem unescapeFrom_of_legible (h : Legible cs) (total offset : Nat) :
    ∃ out, unescapeFrom total offset cs = .ok out := by
  induction h generalizing offset with
  | nil => exact ⟨[], by rw [unescapeFrom]⟩
  | @char c r hc _ ih =>
      obtain ⟨out, hout⟩ := ih (offset + c.utf8Size)
      rw [unescapeFrom_char hc, hout]
      exact ⟨c :: out, rfl⟩
  | @entity name r hname hc _ ih =>
      obtain ⟨c, hc⟩ := hc
      obtain ⟨out, hout⟩ := ih (offset + 2 + Utf8.length name)
      have hmark := untilMark_entity (r := r) hname
      rw [unescapeFrom_entity (congrArg Prod.snd hmark), hmark, resolve_ok hc, hout]
      exact ⟨c :: out, rfl⟩

end

/-- The legible texts are the ones that can be unescaped. -/
theorem unescape_ok_iff : (∃ out, unescape cs = .ok out) ↔ Legible cs := by
  constructor
  · rintro ⟨out, h⟩
    exact legible_of_unescapeFrom h
  · intro h
    exact unescapeFrom_of_legible h _ _

/-! ## Cuts -/

/-- The text ends before an entity is closed. -/
def EndsInEntity (cs : List Char) : Prop := ∃ a b, cs = a ++ '&' :: b ∧ ';' ∉ b

theorem EndsInEntity.cons (c : Char) (h : EndsInEntity cs) : EndsInEntity (c :: cs) := by
  obtain ⟨a, b, rfl, hb⟩ := h
  exact ⟨c :: a, b, rfl, hb⟩

theorem EndsInEntity.prepend (x : List Char) (h : EndsInEntity cs) : EndsInEntity (x ++ cs) := by
  obtain ⟨a, b, rfl, hb⟩ := h
  exact ⟨x ++ a, b, by simp, hb⟩

theorem Legible.not_endsInEntity (h : Legible cs) : ¬ EndsInEntity cs := by
  rintro ⟨a, b, hcs, hb⟩
  induction h generalizing a with
  | nil => simp at hcs
  | char hc _ ih =>
      cases a with
      | nil => exact hc (List.cons.inj hcs).1
      | cons x a => exact ih a (List.cons.inj hcs).2
  | @entity name r hname _ _ ih =>
      cases a with
      | nil =>
          obtain rfl := (List.cons.inj hcs).2
          exact hb (by simp)
      | cons x a =>
          -- the open entity starts behind this one, since names do not contain its mark
          rcases List.append_eq_append_iff.1 (List.cons.inj hcs).2 with ⟨y, rfl, hy⟩ | ⟨y, rfl, hy⟩
          · cases y with
            | nil => simp at hy
            | cons z y => exact ih y (List.cons.inj hy).2
          · cases y with
            | nil => simp at hy
            | cons z y =>
                obtain ⟨rfl, -⟩ := List.cons.inj hy
                exact (hname '&' (by simp)).1 rfl

theorem Legible.cut (h : Legible cs) (hpre : pre <+: cs) (hend : ¬ EndsInEntity pre) : Legible pre := by
  induction h generalizing pre with
  | nil =>
      rw [List.prefix_nil.1 hpre]
      exact .nil
  | char hc _ ih =>
      cases pre with
      | nil => exact .nil
      | cons x pre =>
          obtain ⟨rfl, hpre'⟩ := List.cons_prefix_cons.1 hpre
          exact .char hc (ih hpre' fun h => hend (h.cons x))
  | @entity name r hname hc _ ih =>
      cases pre with
      | nil => exact .nil
      | cons x pre =>
          obtain ⟨rfl, hpre'⟩ := List.cons_prefix_cons.1 hpre
          rcases prefix_append hpre' with ⟨u, hu, rfl⟩ | ⟨pre', rfl, hpre''⟩
          · -- inside the name nothing closes the entity
            refine absurd ⟨[], pre, rfl, ?_⟩ hend
            intro hmem
            exact (hname ';' (List.mem_append_left u hmem)).2 rfl
          · cases pre' with
            | nil =>
                refine absurd ⟨[], name, by simp, ?_⟩ hend
                intro hmem
                exact (hname ';' hmem).2 rfl
            | cons x pre' =>
                obtain ⟨rfl, hpre₃⟩ := List.cons_prefix_cons.1 hpre''
                apply Legible.entity hname hc
                apply ih hpre₃
                intro h
                apply hend
                simpa using h.prepend ('&' :: (name ++ [';']))

/-- A legible text that is cut off is legible unless it ends in an entity. -/
theorem Legible.cut_iff (h : Legible cs) (hpre : pre <+: cs) : Legible pre ↔ ¬ EndsInEntity pre :=
  ⟨Legible.not_endsInEntity, h.cut hpre⟩

/-! ## Blanks -/

theorem Legible.append {a b : List Char} (ha : Legible a) (hb : Legible b) : Legible (a ++ b) := by
  induction ha with
  | nil => exact hb
  | char hc _ ih => exact .char hc ih
  | entity hname hc _ ih =>
      rw [List.cons_append, List.append_assoc]
      exact .entity hname hc ih

theorem ne_of_isSpace {c : Char} (h : isSpace c = true) : c ≠ '&' ∧ c ≠ ';' := by
  constructor
  · rintro rfl
    cases h
  · rintro rfl
    cases h

theorem legible_of_spaces (h : ∀ c ∈ cs, isSpace c = true) : Legible cs := by
  induction cs with
  | nil => exact .nil
  | cons c r ih =>
      have hc := ne_of_isSpace (h c List.mem_cons_self)
      exact .char hc.1 (ih fun x hx => h x (List.mem_cons_of_mem c hx))

theorem Legible.of_spaces {x : List Char} (h : Legible (x ++ cs)) (hx : ∀ c ∈ x, isSpace c = true) :
    Legible cs := by
  induction x with
  | nil => exact h
  | cons c x ih =>
      apply ih _ fun y hy => hx y (List.mem_cons_of_mem c hy)
      rw [List.cons_append] at h
      generalize x ++ cs = r at h
      -- a blank opens no entity
      cases h with
      | char _ h => exact h
      | entity _ _ _ => exact absurd rfl (ne_of_isSpace (hx '&' List.mem_cons_self)).1

theorem strip_split (cs : List Char) : ∃ x y, cs = x ++ (strip cs ++ y) ∧
    (∀ c ∈ x, isSpace c = true) ∧ ∀ c ∈ y, isSpace c = true := by
  refine ⟨cs.takeWhile isSpace, ((cs.dropWhile isSpace).reverse.takeWhile isSpace).reverse, ?_, ?_, ?_⟩
  · rw [strip, ← List.reverse_append, List.takeWhile_append_dropWhile, List.reverse_reverse,
      List.takeWhile_append_dropWhile]
  · exact List.all_eq_true.1 List.all_takeWhile
  · intro c hc
    exact List.all_eq_true.1 List.all_takeWhile c (List.mem_reverse.1 hc)

/-- Blanks at its ends do not make a text less legible. -/
theorem legible_strip (cs : List Char) : Legible (strip cs) ↔ Legible cs := by
  obtain ⟨x, y, hcs, hx, hy⟩ := strip_split cs
  constructor
  · intro h
    rw [hcs]
    exact (legible_of_spaces hx).append (h.append (legible_of_spaces hy))
  · intro h
    rw [hcs] at h
    have hrest := h.of_spaces hx
    apply hrest.cut ⟨y, rfl⟩
    rintro ⟨a, b, hab, hb⟩
    -- blanks do not close an entity either, so the longer text would end in it too
    refine hrest.not_endsInEntity ⟨a, b ++ y, by simp [hab], ?_⟩
    intro hmem
    rcases List.mem_append.1 hmem with hmem | hmem
    · exact hb hmem
    · exact (ne_of_isSpace (hy ';' hmem)).2 rfl

/-! ## What a text stands for -/

theorem Legible.exists_unescaped (h : Legible cs) : ∃ out, ∀ total offset, ∃ offset', ∀ rest,
    unescapeFrom total offset (cs ++ rest) = (unescapeFrom total offset' rest).map (out ++ ·) := by
  induction h with
  | nil =>
      refine ⟨[], ?_⟩
      intro total offset
      refine ⟨offset, ?_⟩
      intro rest
      show unescapeFrom total offset rest = _
      cases unescapeFrom total offset rest <;> rfl
  | @char c r hc _ ih =>
      obtain ⟨out, hout⟩ := ih
      refine ⟨c :: out, ?_⟩
      intro total offset
      obtain ⟨offset', hrest⟩ := hout total (offset + c.utf8Size)
      refine ⟨offset', ?_⟩
      intro rest
      rw [List.cons_append, unescapeFrom_char hc, hrest]
      cases unescapeFrom total offset' rest <;> rfl
  | @entity name r hname hc _ ih =>
      obtain ⟨c, hc⟩ := hc
      obtain ⟨out, hout⟩ := ih
      refine ⟨c :: out, ?_⟩
      intro total offset
      obtain ⟨offset', hrest⟩ := hout total (offset + 2 + Utf8.length name)
      refine ⟨offset', ?_⟩
      intro rest
      have hmark := untilMark_entity (r := r ++ rest) hname
      rw [List.cons_append, List.append_assoc, List.cons_append,
        unescapeFrom_entity (congrArg Prod.snd hmark), hmark, resolve_ok hc, hrest]
      cases unescapeFrom total offset' rest <;> rfl

theorem unescapeFrom_spaces {x : List Char} (hx : ∀ c ∈ x, isSpace c = true) (total offset : Nat) :
    ∃ offset', ∀ rest, unescapeFrom total offset (x ++ rest) = (unescapeFrom total offset' rest).map (x ++ ·) := by
  induction x generalizing offset with
  | nil =>
      refine ⟨offset, ?_⟩
      intro rest
      show unescapeFrom total offset rest = _
      cases unescapeFrom total offset rest <;> rfl
  | cons c x ih =>
      obtain ⟨offset', hrest⟩ := ih (fun y hy => hx y (List.mem_cons_of_mem c hy)) (offset + c.utf8Size)
      refine ⟨offset', ?_⟩
      intro rest
      rw [List.cons_append, unescapeFrom_char (ne_of_isSpace (hx c List.mem_cons_self)).1, hrest]
      cases unescapeFrom total offset' rest <;> rfl

/-- Blanks around a text stand for themselves. -/
theorem unescape_strip {out : List Char} (h : unescape (strip cs) = .ok out) : ∃ x y,
    (∀ c ∈ x, isSpace c = true) ∧ (∀ c ∈ y, isSpace c = true) ∧ unescape cs = .ok (x ++ (out ++ y)) := by
  obtain ⟨x, y, hcs, hx, hy⟩ := strip_split cs
  refine ⟨x, y, hx, hy, ?_⟩
  obtain ⟨out', hout⟩ := (unescape_ok_iff.1 ⟨out, h⟩).exists_unescaped
  have hempty (total offset : Nat) : unescapeFrom total offset [] = .ok [] := by rw [unescapeFrom]
  have heq : out' = out := by
    obtain ⟨offset, hrest⟩ := hout (Utf8.length (strip cs)) 0
    have hwhole := hrest []
    rw [List.append_nil, hempty] at hwhole
    have hsame := h.symm.trans hwhole
    simpa [Except.map] using hsame.symm
  rw [unescape]
  generalize Utf8.length cs = total
  obtain ⟨offset₁, h₁⟩ := unescapeFrom_spaces hx total 0
  obtain ⟨offset₂, h₂⟩ := hout total offset₁
  obtain ⟨offset₃, h₃⟩ := unescapeFrom_spaces hy total offset₂
  have hend := h₃ []
  rw [List.append_nil, hempty] at hend
  conv => lhs; rw [hcs]
  rw [h₁, h₂, hend, heq]
  simp [Except.map]

end Harvesting.Markup
