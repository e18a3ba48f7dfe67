import Harvesting.Text.Decimal
import Harvesting.Text.Utf8

/-!
# Numerals

* `Text.Decimal.numeral_padded`, `Text.Decimal.length_padded` — padded numerals: their value and length;
* `Utf8.length_le` — every character has a byte.
-/

namespace Harvesting

namespace Text.Decimal

theorem toList_padded (width n : Nat) :
    (padded width n).toList = List.replicate (width - (digits n).length) '0' ++ digits n := by
  simp [padded]

theorem numeral_padded (width n : Nat) : numeral (padded width n).toList = n := by
  -- zeros in front count nothing
  show Nat.ofDigitChars 10 (padded width n).toList 0 = n
  rw [toList_padded, Nat.ofDigitChars_append, Nat.ofDigitChars_replicate_zero, Nat.mul_zero]
  exact Nat.ofDigitChars_ten_toDigits

theorem isDigit_of_mem_padded {width n : Nat} {c : Char} (h : c ∈ (padded width n).toList) :
    c.isDigit = true := by
  rw [toList_padded, List.mem_append] at h
  rcases h with h | h
  · rw [List.eq_of_mem_replicate h]
    rfl
  · exact Nat.isDigit_of_mem_toDigits (by omega) (by omega) h

theorem le_length_padded (width n : Nat) : width ≤ (padded width n).toList.length := by
  rw [toList_padded, List.length_append, List.length_replicate]
  omega

theorem length_padded {width n : Nat} (hw : 0 < width) (h : n < Nat.pow 10 width) :
    (padded width n).toList.length = width := by
  have hlen : (digits n).length ≤ width := (Nat.length_toDigits_le_iff (by omega) hw).2 h
  rw [toList_padded, List.length_append, List.length_replicate]
  omega

end Text.Decimal

namespace Utf8

theorem length_le (cs : List Char) : cs.length ≤ length cs := by
  induction cs with
  | nil => exact Nat.le_refl 0
  | cons c r ih =>
    have hc : 0 < c.utf8Size := c.utf8Size_pos
    simp only [length, List.length_cons]
    omega

end Utf8

end Harvesting
