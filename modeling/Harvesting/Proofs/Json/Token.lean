import Harvesting.Json.Printer
import Harvesting.Json.Token
import Harvesting.Proofs.Json.Value
import Harvesting.Proofs.Text.Decimal

/-!
# Tokens are read as they were written

What the tokenizer makes of the strings, words and whole numbers that the printer writes, whatever text
follows them.

* `Json.stringBody_escape` — a string comes back as it was;
* `Json.numeral_wholeText`, `Json.number_toString` — a whole number that 64 bits hold comes back as it was;
* `Json.Spells` — a text that is one token; `Json.spells_quote`, `Json.spells_int` and their like.
-/

namespace Harvesting.Json

/-! ## Strings -/

/-- Each character after a backslash that is no code point stands for the character it escapes. -/
theorem stringBody_short {x c : Char} {rest xs : List Char} {n : Nat} (hx : x ≠ 'u')
    (hshort : shortEscape? x = some c) (h : stringBody rest = .ok (xs, n)) :
    stringBody ('\\' :: x :: rest) = .ok (c :: xs, n + 2) := by
  have hescape : escapeSequence (x :: rest) = .ok (c, 2) := by
    rw [escapeSequence.eq_def]
    split
    · next heq => cases heq
    · next heq =>
      cases heq
      exact absurd rfl hx
    · next heq =>
      cases heq
      simp only [hshort]
  rw [stringBody, hescape]
  simp only [List.drop_succ_cons, List.drop_zero, h]

/-- The two digits of a control character name it. -/
theorem hex4?_hexDigit : ∀ n < 32, hex4? '0' '0' (hexDigit (n / 16)) (hexDigit (n % 16)) = some n := by
  decide

theorem stringBody_control {c : Char} {rest xs : List Char} {n : Nat} (hc : c.toNat < 32)
    (h : stringBody rest = .ok (xs, n)) :
    stringBody ('\\' :: 'u' :: '0' :: '0' :: hexDigit (c.toNat / 16) :: hexDigit (c.toNat % 16) :: rest) =
      .ok (c :: xs, n + 6) := by
  have hunit : codeUnit 2 ('0' :: '0' :: hexDigit (c.toNat / 16) :: hexDigit (c.toNat % 16) :: rest) =
      .ok c.toNat := by
    have hbytes := Utf8.length_le ('0' :: '0' :: hexDigit (c.toNat / 16) :: hexDigit (c.toNat % 16) :: rest)
    simp only [List.length_cons] at hbytes
    rw [codeUnit, if_pos (by omega), hex4?_hexDigit _ hc]
  have htrailing : isTrailing c.toNat = false := by
    rw [isTrailing, Bool.and_eq_false_iff]
    exact .inl (decide_eq_false (by omega))
  have hleading : isLeading c.toNat = false := by
    rw [isLeading, Bool.and_eq_false_iff]
    exact .inl (decide_eq_false (by omega))
  have hescape : escapeSequence
      ('u' :: '0' :: '0' :: hexDigit (c.toNat / 16) :: hexDigit (c.toNat % 16) :: rest) = .ok (c, 6) := by
    rw [escapeSequence, hunit]
    simp only [bind, Except.bind, htrailing, hleading]
    exact congrArg (fun c => Except.ok (c, 6)) (Char.ofNat_toNat c)
  rw [stringBody, hescape]
  simp only [List.drop_succ_cons, List.drop_zero, h]

theorem stringBody_plain {c : Char} {rest xs : List Char} {n : Nat} (hquote : c ≠ '"') (hslash : c ≠ '\\')
    (hc : ¬ c.toNat < 32) (h : stringBody rest = .ok (xs, n)) :
    stringBody (c :: rest) = .ok (c :: xs, n + 1) := by
  rw [stringBody.eq_def]
  split
  · next heq => cases heq
  · next heq =>
    cases heq
    exact absurd rfl hquote
  · next heq =>
    cases heq
    exact absurd rfl hslash
  · next heq =>
    cases heq
    rw [if_neg hc, h]

/-- A character is read as it was written, whatever follows. -/
theorem stringBody_escapeChar (c : Char) {rest xs : List Char} {n : Nat}
    (h : stringBody rest = .ok (xs, n)) :
    stringBody (escapeChar c ++ rest) = .ok (c :: xs, n + (escapeChar c).length) := by
  have hnamed (k : Nat) (hk : c.toNat = k) : Char.ofNat k = c := by rw [← hk, Char.ofNat_toNat]
  rw [escapeChar]
  split
  · next hc => exact stringBody_short (by decide) (by rw [hc]; rfl) h
  split
  · next hc => exact stringBody_short (by decide) (by rw [hc]; rfl) h
  split
  · next hc => exact stringBody_short (x := 'b') (by decide) (congrArg some (hnamed 8 hc)) h
  split
  · next hc => exact stringBody_short (x := 'f') (by decide) (congrArg some (hnamed 12 hc)) h
  split
  · next hc => exact stringBody_short (by decide) (by rw [hc]; rfl) h
  split
  · next hc => exact stringBody_short (by decide) (by rw [hc]; rfl) h
  split
  · next hc => exact stringBody_short (by decide) (by rw [hc]; rfl) h
  split
  · next hc => exact stringBody_control hc h
  · next hquote hslash _ _ _ _ _ hc => exact stringBody_plain hquote hslash hc h

theorem stringBody_escape (cs rest : List Char) :
    stringBody (escape cs ++ '"' :: rest) = .ok (cs, (escape cs).length + 1) := by
  induction cs with
  | nil => rw [escape, List.flatMap_nil, List.nil_append, stringBody]; rfl
  | cons c cs ih =>
      have hcons : escape (c :: cs) = escapeChar c ++ escape cs := rfl
      rw [hcons, List.append_assoc, stringBody_escapeChar c ih, List.length_append]
      congr 2
      omega

/-! ## Whole numbers -/

/-- The text goes on with something that belongs to no numeral. -/
def Apart (cs : List Char) : Prop :=
  ∀ c ∈ cs.head?, c.isDigit = false ∧ c ≠ '.' ∧ c ≠ 'e' ∧ c ≠ 'E'

theorem takeWhile_digits (n : Nat) {rest : List Char} (h : Apart rest) :
    (Nat.toDigits 10 n ++ rest).takeWhile Char.isDigit = Nat.toDigits 10 n := by
  have hdigits : ∀ c ∈ Nat.toDigits 10 n, c.isDigit = true := fun c hc =>
    Nat.isDigit_of_mem_toDigits (by omega) (by omega) hc
  rw [List.takeWhile_append_of_pos hdigits]
  cases rest with
  | nil => rw [List.takeWhile_nil, List.append_nil]
  | cons c r =>
      have hc : ¬ c.isDigit = true := by simp [(h c rfl).1]
      rw [List.takeWhile_cons_of_neg hc, List.append_nil]

/-- A numeral of more than one digit does not begin with zero. -/
theorem head_toDigits {n : Nat} (h : n ≠ 0) : (Nat.toDigits 10 n).head? ≠ some '0' := by
  induction n using Nat.strongRecOn with
  | ind n ih =>
    by_cases hn : 10 ≤ n
    · -- the digits before the last one are those of a smaller number
      have hhead := ih (n / 10) (by omega) (by omega)
      rw [Nat.toDigits_of_base_le (by omega) hn, List.head?_append]
      cases hd : (Nat.toDigits 10 (n / 10)).head? with
      | none => exact absurd (List.head?_eq_none_iff.1 hd) Nat.toDigits_ne_nil
      | some c =>
          rw [hd] at hhead
          exact hhead
    · have hsmall : ∀ k < 10, k ≠ 0 → (Nat.toDigits 10 k).head? ≠ some '0' := by decide
      exact hsmall n (by omega) h

theorem leading_toDigits (n : Nat) :
    ¬ (1 < (Nat.toDigits 10 n).length ∧ (Nat.toDigits 10 n).head? = some '0') := by
  rintro ⟨hlen, hhead⟩
  by_cases hn : n = 0
  · subst hn
    exact absurd hlen (by decide)
  · exact head_toDigits hn hhead

theorem someDigits_toDigits (used n : Nat) {rest : List Char} (h : Apart rest) :
    someDigits used (Nat.toDigits 10 n ++ rest) = .ok (Nat.toDigits 10 n) := by
  have hne : Nat.toDigits 10 n ≠ [] := Nat.toDigits_ne_nil
  rw [someDigits.eq_def, takeWhile_digits n h]
  split
  · next heq _ => exact absurd heq hne
  · next heq _ => exact absurd heq hne
  · rfl

/-- The characters of a whole number. -/
def wholeText (negative : Bool) (n : Nat) : List Char :=
  (if negative then ['-'] else []) ++ Nat.toDigits 10 n

theorem signed_wholeText (negative : Bool) (n : Nat) (rest : List Char) :
    signed false (wholeText negative n ++ rest) =
      (negative, if negative then 1 else 0, Nat.toDigits 10 n ++ rest) := by
  cases negative with
  | true => rfl
  | false =>
      cases hd : Nat.toDigits 10 n with
      | nil => exact absurd hd Nat.toDigits_ne_nil
      | cons c r =>
          have hc : c.isDigit = true :=
            Nat.isDigit_of_mem_toDigits (by omega) (by omega) (hd ▸ List.mem_cons_self : c ∈ Nat.toDigits 10 n)
          rw [wholeText, hd]
          show signed false (c :: (r ++ rest)) = _
          rw [signed.eq_def]
          split
          · next heq =>
            cases heq
            exact absurd hc (by decide)
          · next heq =>
            cases heq
            exact absurd hc (by decide)
          · rfl

/-- A whole number is read up to its last digit. -/
theorem numeral_wholeText (negative : Bool) (n : Nat) {rest : List Char} (h : Apart rest) :
    numeral (wholeText negative n ++ rest) =
      .ok ⟨negative, Nat.toDigits 10 n, [], none, (wholeText negative n).length⟩ := by
  have hlength : (wholeText negative n).length = (if negative then 1 else 0) + (Nat.toDigits 10 n).length := by
    cases negative <;> simp [wholeText, Nat.add_comm]
  have hdrop : (Nat.toDigits 10 n ++ rest).drop (Nat.toDigits 10 n).length = rest := List.drop_left
  rw [hlength, numeral, signed_wholeText]
  simp only [someDigits_toDigits _ n h, bind, Except.bind, leading_toDigits, if_false, hdrop]
  cases rest with
  | nil => rfl
  | cons c r =>
      obtain ⟨-, hpoint, he, hE⟩ := h c rfl
      have hexponent : ¬ (c = 'e' ∨ c = 'E') := by
        rintro (rfl | rfl)
        · exact he rfl
        · exact hE rfl
      split
      · next heq =>
        cases heq
        exact absurd rfl hpoint
      · simp only [pure, Except.pure, hexponent, if_false]

theorem le_ofDigitChars (ds : List Char) (init : Nat) : init ≤ Nat.ofDigitChars 10 ds init := by
  induction ds generalizing init with
  | nil => exact Nat.le_refl _
  | cons c ds ih =>
      rw [Nat.ofDigitChars_cons]
      exact Nat.le_trans (by omega) (ih _)

/-- Digits of a number that fits are all taken. -/
theorem accumulate_digits (ds : List Char) (significand taken : Nat)
    (h : Nat.ofDigitChars 10 ds significand ≤ maxWhole) :
    accumulate significand taken ds = (Nat.ofDigitChars 10 ds significand, taken + ds.length, []) := by
  induction ds generalizing significand taken with
  | nil => rfl
  | cons c ds ih =>
      rw [Nat.ofDigitChars_cons] at h ⊢
      have hnext := le_ofDigitChars ds (10 * significand + (c.toNat - '0'.toNat))
      have hzero : '0'.toNat = 48 := rfl
      rw [hzero] at h hnext ⊢
      rw [accumulate, if_neg (by omega), ih _ _ h, List.length_cons]
      congr 2
      omega

theorem value_wholeText {negative : Bool} {n length : Nat} (hmax : n ≤ maxWhole)
    (hnegative : negative = true → n ≠ 0 ∧ n ≤ 9223372036854775808) :
    (⟨negative, Nat.toDigits 10 n, [], none, length⟩ : Numeral).value =
      .ok (.int (if negative then -(n : Int) else n)) := by
  have hvalue : Nat.ofDigitChars 10 (Nat.toDigits 10 n) 0 = n := Nat.ofDigitChars_ten_toDigits
  have hwhole := accumulate_digits (Nat.toDigits 10 n) 0 0 (by rw [hvalue]; exact hmax)
  rw [hvalue] at hwhole
  rw [Numeral.value]
  simp only [hwhole]
  cases negative with
  | false => rfl
  | true =>
      obtain ⟨hne, hle⟩ := hnegative rfl
      have hfits : ¬ (n = 0 ∨ 9223372036854775808 < n) := by omega
      simp [accumulate, hfits]

theorem toList_toString_int (n : Int) : (toString n).toList = wholeText (n < 0) n.natAbs := by
  cases n with
  | ofNat n =>
      have hsign : ¬ (Int.ofNat n < 0) := by simp
      show (Nat.repr n).toList = _
      rw [Nat.repr_eq_ofList_toDigits, String.toList_ofList, wholeText, decide_eq_false hsign]
      rfl
  | negSucc n =>
      have hsign : Int.negSucc n < 0 := Int.negSucc_lt_zero n
      show ("-" ++ Nat.repr (n + 1)).toList = _
      rw [String.toList_append, Nat.repr_eq_ofList_toDigits, String.toList_ofList, String.toList_ofList,
        wholeText, decide_eq_true hsign]
      rfl

/-- A whole number is read as it was written. -/
theorem number_toString {n : Int} (hn : InWords n) {rest : List Char} (h : Apart rest) :
    number ((toString n).toList ++ rest) = .ok (.int n, (toString n).toList.length) := by
  obtain ⟨hmin, hmax⟩ := hn
  have hmaxWhole : maxWhole = 18446744073709551615 := rfl
  have hvalue : (if decide (n < 0) then -(n.natAbs : Int) else (n.natAbs : Int)) = n := by
    split
    · next hsign =>
      have := of_decide_eq_true hsign
      omega
    · next hsign =>
      have := of_decide_eq_false (Bool.eq_false_iff.2 hsign)
      omega
  have hread : (⟨decide (n < 0), Nat.toDigits 10 n.natAbs, [], none,
      (wholeText (n < 0) n.natAbs).length⟩ : Numeral).value = .ok (.int n) := by
    rw [value_wholeText, hvalue]
    · omega
    · intro hsign
      have := of_decide_eq_true hsign
      omega
  rw [toList_toString_int, number, numeral_wholeText _ _ h]
  simp only [bind, Except.bind, hread]
  rfl

/-! ## Tokens -/

/-- The text begins with no blank and is one token, with `rest` after it. -/
structure Spells (kind : TokenKind) (text rest : List Char) : Prop where
  begins : ∃ c r, text = c :: r ∧ isSpace c = false
  token : ∀ p, tokenAt p (text ++ rest) = (kind, some text.length)

variable {rest : List Char}

theorem spells_openList : Spells .openList ['['] rest := ⟨⟨_, _, rfl, rfl⟩, fun _ => rfl⟩

theorem spells_closeList : Spells .closeList [']'] rest := ⟨⟨_, _, rfl, rfl⟩, fun _ => rfl⟩

theorem spells_openObject : Spells .openObject ['\x7b'] rest := ⟨⟨_, _, rfl, rfl⟩, fun _ => rfl⟩

theorem spells_closeObject : Spells .closeObject ['\x7d'] rest := ⟨⟨_, _, rfl, rfl⟩, fun _ => rfl⟩

theorem spells_comma : Spells .comma [','] rest := ⟨⟨_, _, rfl, rfl⟩, fun _ => rfl⟩

theorem spells_colon : Spells .colon [':'] rest := ⟨⟨_, _, rfl, rfl⟩, fun _ => rfl⟩

theorem spells_null : Spells (.literal .null) "null".toList rest := ⟨⟨_, _, rfl, rfl⟩, fun _ => rfl⟩

theorem spells_true : Spells (.literal (.bool true)) "true".toList rest := ⟨⟨_, _, rfl, rfl⟩, fun _ => rfl⟩

theorem spells_false : Spells (.literal (.bool false)) "false".toList rest := ⟨⟨_, _, rfl, rfl⟩, fun _ => rfl⟩

theorem spells_quote (s : String) : Spells (.string s) (quote s) rest := by
  refine ⟨⟨_, _, rfl, rfl⟩, ?_⟩
  intro p
  have htext : quote s ++ rest = '"' :: (escape s.toList ++ '"' :: rest) := by simp [quote]
  have hlength : (quote s).length = (escape s.toList).length + 1 + 1 := by simp [quote]
  rw [htext, hlength, tokenAt, stringBody_escape]
  simp only [String.ofList_toList]

/-- A number begins with a digit or with its sign. -/
theorem head_toString_int (n : Int) : ∃ c r, (toString n).toList = c :: r ∧ (c.isDigit = true ∨ c = '-') := by
  rw [toList_toString_int, wholeText]
  cases decide (n < 0) with
  | true => exact ⟨'-', _, rfl, .inr rfl⟩
  | false =>
      cases hd : Nat.toDigits 10 n.natAbs with
      | nil => exact absurd hd Nat.toDigits_ne_nil
      | cons c r =>
          exact ⟨c, r, rfl, .inl (Nat.isDigit_of_mem_toDigits (by omega) (by omega)
            (hd ▸ List.mem_cons_self : c ∈ Nat.toDigits 10 n.natAbs))⟩

theorem spells_int {n : Int} (hn : InWords n) (h : Apart rest) :
    Spells (.literal (.int n)) (toString n).toList rest := by
  obtain ⟨c, r, htext, hc⟩ := head_toString_int n
  have hnumber := number_toString hn h
  rw [htext] at hnumber ⊢
  constructor
  · refine ⟨c, r, rfl, ?_⟩
    rw [Bool.eq_false_iff]
    intro hspace
    simp only [isSpace, Bool.or_eq_true, decide_eq_true_eq] at hspace
    rcases hspace with ((rfl | rfl) | rfl) | rfl <;> simp at hc
  · intro p
    rw [List.cons_append, tokenAt.eq_def]
    -- of the characters at which a token can begin, only digits and the sign begin a number
    split
    · next heq => cases heq
    iterate 10
      · next heq =>
        cases heq
        exact absurd hc (by decide)
    · next heq =>
      cases heq
      rw [if_pos hc, ← List.cons_append, hnumber]
      rfl

end Harvesting.Json
