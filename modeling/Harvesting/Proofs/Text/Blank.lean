import Harvesting.Text.Blank
import Mathlib.Data.List.Basic
import Mathlib.Data.List.TakeWhile

/-!
# Texts without blanks at their ends

* `Text.dropWhile_ends` — a text stays as it is if neither its first nor its last character is dropped;
* `Text.trim_eq_self_iff` — the texts that are trimmed already;
* `Text.trim_append`, `Text.trim_around` — blanks around a text do not count;
* `Text.solid` — the characters of a text that are not blank, whether it is trimmed or not.
-/

namespace Harvesting.Text

variable {cs : List Char} {p : Char → Bool}

theorem isBlank_of_isDigit {c : Char} (h : c.isDigit = true) : isBlank c = false := by
  have hdigit : 48 ≤ c.toNat ∧ c.toNat ≤ 57 := by
    simpa [Char.isDigit, UInt32.le_iff_toNat_le] using h
  rw [Bool.eq_false_iff]
  intro hb
  simp [isBlank, UInt32.le_iff_toNat_le, ← UInt32.toNat_inj, Char.ext_iff] at hb
  omega

theorem dropWhile_first (h : ∀ c ∈ cs.head?, p c = false) : cs.dropWhile p = cs := by
  cases cs with
  | nil => rfl
  | cons c r =>
    rw [List.dropWhile_cons_of_neg]
    simp [h c rfl]

theorem dropWhile_ends (hfirst : ∀ c ∈ cs.head?, p c = false) (hlast : ∀ c ∈ cs.getLast?, p c = false) :
    ((cs.dropWhile p).reverse.dropWhile p).reverse = cs := by
  have hreverse : cs.reverse.dropWhile p = cs.reverse := dropWhile_first (by simpa using hlast)
  rw [dropWhile_first hfirst, hreverse, List.reverse_reverse]

theorem trim_eq_self (hfirst : ∀ c ∈ cs.head?, isBlank c = false)
    (hlast : ∀ c ∈ cs.getLast?, isBlank c = false) : trim cs = cs := dropWhile_ends hfirst hlast

/-- A text that is not changed by what drops its first characters starts with none of them. -/
theorem first_of_dropWhile (h : cs.dropWhile p = cs) : ∀ c ∈ cs.head?, p c = false := by
  intro c hc
  have hhead := List.head?_dropWhile_not p cs
  rw [h, Option.mem_def.1 hc] at hhead
  simpa using hhead

theorem trim_eq_self_iff : trim cs = cs ↔
    (∀ c ∈ cs.head?, isBlank c = false) ∧ ∀ c ∈ cs.getLast?, isBlank c = false := by
  constructor
  · intro h
    have hstart := List.dropWhile_sublist isBlank (l := cs)
    have hend := List.dropWhile_sublist isBlank (l := (trimStart cs).reverse)
    have hlength := congrArg List.length h
    rw [trim, trimEnd, List.length_reverse] at hlength
    -- each of the two ends can only make the text shorter, so neither does
    have hfirst : trimStart cs = cs := by
      apply hstart.eq_of_length_le
      have hshort := hend.length_le
      rwa [hlength, List.length_reverse] at hshort
    refine ⟨first_of_dropWhile hfirst, ?_⟩
    rw [trim, hfirst, trimEnd] at h
    have hlast := first_of_dropWhile (List.reverse_eq_iff.1 h)
    rwa [List.head?_reverse] at hlast
  · rintro ⟨hfirst, hlast⟩
    exact trim_eq_self hfirst hlast

/-- Blanks around a text do not count. -/
theorem trim_append {g m g' : List Char} (hg : ∀ c ∈ g, isBlank c = true) (hg' : ∀ c ∈ g', isBlank c = true)
    (hm : trim m = m) : trim (g ++ (m ++ g')) = m := by
  obtain ⟨hfirst, hlast⟩ := trim_eq_self_iff.1 hm
  rw [trim, trimStart, List.dropWhile_append_of_pos hg]
  cases m with
  | nil =>
      rw [List.nil_append, List.dropWhile_eq_nil_iff.2 hg']
      rfl
  | cons c r =>
      have hstart : ((c :: r) ++ g').dropWhile isBlank = (c :: r) ++ g' := dropWhile_first hfirst
      rw [hstart, trimEnd, List.reverse_append,
        List.dropWhile_append_of_pos fun x hx => hg' x (List.mem_reverse.1 hx),
        dropWhile_first (by rwa [List.head?_reverse]), List.reverse_reverse]

/-- A text is trimmed of blanks. -/
theorem trim_split (cs : List Char) : ∃ x y, cs = x ++ (trim cs ++ y) ∧
    (∀ c ∈ x, isBlank c = true) ∧ ∀ c ∈ y, isBlank c = true := by
  refine ⟨cs.takeWhile isBlank, ((cs.dropWhile isBlank).reverse.takeWhile isBlank).reverse, ?_, ?_, ?_⟩
  · rw [trim, trimEnd, trimStart, ← List.reverse_append, List.takeWhile_append_dropWhile, List.reverse_reverse,
      List.takeWhile_append_dropWhile]
  · exact List.all_eq_true.1 List.all_takeWhile
  · intro c hc
    exact List.all_eq_true.1 List.all_takeWhile c (List.mem_reverse.1 hc)

theorem trim_trim (cs : List Char) : trim (trim cs) = trim cs := by
  have hhead (ds : List Char) : ∀ c ∈ (ds.dropWhile isBlank).head?, isBlank c = false := by
    intro c hc
    have hdropped := List.head?_dropWhile_not isBlank ds
    rw [Option.mem_def.1 hc] at hdropped
    simpa using hdropped
  apply trim_eq_self
  · intro c hc
    -- what is left at the front when the end is dropped was at the front before
    have hprefix : trim cs <+: trimStart cs := by
      refine ⟨((trimStart cs).reverse.takeWhile isBlank).reverse, ?_⟩
      rw [trim, trimEnd, ← List.reverse_append, List.takeWhile_append_dropWhile, List.reverse_reverse]
    obtain ⟨u, hu⟩ := hprefix
    apply hhead cs c
    rw [← trimStart, ← hu, List.head?_append, Option.mem_def.1 hc]
    rfl
  · intro c hc
    rw [trim, trimEnd, List.getLast?_reverse] at hc
    exact hhead _ c hc

theorem trim_around {x y : List Char} (hx : ∀ c ∈ x, isBlank c = true) (hy : ∀ c ∈ y, isBlank c = true)
    (cs : List Char) : trim (x ++ (cs ++ y)) = trim cs := by
  obtain ⟨x', y', hcs, hx', hy'⟩ := trim_split cs
  have hsplit : x ++ (cs ++ y) = (x ++ x') ++ (trim cs ++ (y' ++ y)) := by
    conv => lhs; rw [hcs]
    simp
  rw [hsplit]
  apply trim_append _ _ (trim_trim cs)
  · intro c hc
    exact (List.mem_append.1 hc).elim (hx c) (hx' c)
  · intro c hc
    exact (List.mem_append.1 hc).elim (hy' c) (hy c)

theorem trim_eq_nil_iff : trim cs = [] ↔ ∀ c ∈ cs, isBlank c = true := by
  constructor
  · intro h
    obtain ⟨x, y, hcs, hx, hy⟩ := trim_split cs
    rw [h, List.nil_append] at hcs
    rw [hcs]
    intro c hc
    exact (List.mem_append.1 hc).elim (hx c) (hy c)
  · intro h
    rw [trim, trimStart, List.dropWhile_eq_nil_iff.2 h]
    rfl

/-- The characters that are not blank. -/
def solid (cs : List Char) : List Char := cs.filter (!isBlank ·)

theorem solid_append (a b : List Char) : solid (a ++ b) = solid a ++ solid b := List.filter_append ..

theorem solid_eq_nil_iff : solid cs = [] ↔ trim cs = [] := by
  rw [trim_eq_nil_iff, solid, List.filter_eq_nil_iff]
  simp

theorem solid_trim (cs : List Char) : solid (trim cs) = solid cs := by
  obtain ⟨x, y, hcs, hx, hy⟩ := trim_split cs
  have hnone {g : List Char} (hg : ∀ c ∈ g, isBlank c = true) : solid g = [] :=
    solid_eq_nil_iff.2 (trim_eq_nil_iff.2 hg)
  conv => rhs; rw [hcs]
  rw [solid_append, solid_append, hnone hx, hnone hy, List.nil_append, List.append_nil]

end Harvesting.Text
