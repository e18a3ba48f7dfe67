import Harvesting.Text.Utf8

/-!
# Characters are read as they were written

* `Utf8.decodeLossy_encode` — the bytes of some characters are read as these characters, whatever follows;
* `Utf8.toUTF8_ofList` — they are the bytes of the string;
* `Utf8.encodeChar_ascii`, `Utf8.ascii_of_mem_encodeChar` — a byte below 128 is the only byte of its character.
-/

namespace Harvesting.Utf8

theorem toNat_byte {n : Nat} (h : n < 256) : (UInt8.ofNat n).toNat = n :=
  UInt8.toNat_ofNat_of_lt' h

/-- The code points that are characters leave out the surrogates. -/
theorem toNat_char (c : Char) : c.toNat < 0xD800 ∨ 0xDFFF < c.toNat ∧ c.toNat < 0x110000 := c.valid

/-! ## One character -/

/-- A byte that continues a character adds six bits. -/
theorem follow_cons {acc used k lo hi m : Nat} {r : List UInt8} (hm : m < 64) (hlo : lo ≤ 0x80 + m)
    (hhi : 0x80 + m ≤ hi) :
    follow acc used (k + 1) lo hi (UInt8.ofNat (0x80 + m) :: r) = follow (64 * acc + m) (used + 1) k 0x80 0xBF r := by
  have hbyte : (UInt8.ofNat (0x80 + m)).toNat = 0x80 + m := toNat_byte (by omega)
  have hcontinues : continues lo hi (UInt8.ofNat (0x80 + m)) = true := by
    rw [continues, hbyte, decide_eq_true hlo, decide_eq_true hhi]
    rfl
  rw [follow, if_pos hcontinues, hbyte, Nat.add_sub_cancel_left]

/-- What the first byte says of the bytes that follow, where these say the character. -/
theorem first_of_follow {b : UInt8} {k lo hi n used : Nat} {r : List UInt8} {c : Char}
    (hlead : lead? b = some (k, lo, hi, n)) (hfollow : follow n 0 k lo hi r = (some c.toNat, used)) :
    first b r = (c, used) := by
  rw [first, hlead]
  simp only [hfollow, Char.ofNat_toNat]

theorem lead?_one {n : Nat} (h : n < 0x80) : lead? (UInt8.ofNat n) = some (0, 0, 0, n) := by
  simp only [lead?, toNat_byte (show n < 256 by omega)]
  rw [if_pos h]

theorem lead?_two {n : Nat} (hlo : 2 ≤ n) (hhi : n < 0x20) :
    lead? (UInt8.ofNat (0xC0 + n)) = some (1, 0x80, 0xBF, n) := by
  simp only [lead?, toNat_byte (show 0xC0 + n < 256 by omega)]
  rw [if_neg (by omega), if_pos (by omega), Nat.add_sub_cancel_left]

/-- The bounds of the second of three bytes leave out what is shorter and the surrogates. -/
theorem lead?_three {n : Nat} (h : n < 0x10) :
    lead? (UInt8.ofNat (0xE0 + n)) = some (2, if n = 0 then 0xA0 else 0x80, if n = 13 then 0x9F else 0xBF, n) := by
  simp only [lead?, toNat_byte (show 0xE0 + n < 256 by omega)]
  rw [if_neg (by omega), if_neg (by omega)]
  by_cases hzero : n = 0
  · subst hzero
    rfl
  by_cases hlast : n = 13
  · subst hlast
    rfl
  rw [if_neg (by omega), if_neg (by omega), if_pos (by omega), if_neg hzero, if_neg hlast, Nat.add_sub_cancel_left]

/-- The bounds of the second of four bytes leave out what is shorter and what is no code point. -/
theorem lead?_four {n : Nat} (h : n ≤ 4) :
    lead? (UInt8.ofNat (0xF0 + n)) = some (3, if n = 0 then 0x90 else 0x80, if n = 4 then 0x8F else 0xBF, n) := by
  have hall : ∀ n ≤ 4, lead? (UInt8.ofNat (0xF0 + n)) =
      some (3, if n = 0 then 0x90 else 0x80, if n = 4 then 0x8F else 0xBF, n) := by decide
  exact hall n h

theorem first_encodeChar (c : Char) (r : List UInt8) :
    ∃ b bs, encodeChar c = b :: bs ∧ first b (bs ++ r) = (c, bs.length) := by
  have hc := toNat_char c
  generalize hn : c.toNat = n at hc
  unfold encodeChar
  simp only [hn]
  split
  · next hone =>
    refine ⟨_, [], rfl, first_of_follow (lead?_one hone) ?_⟩
    rw [hn]
    rfl
  split
  · next htwo =>
    refine ⟨_, [_], rfl, first_of_follow (lead?_two (by omega) (by omega)) ?_⟩
    rw [List.cons_append, follow_cons (by omega) (by omega) (by omega), follow, hn]
    congr 2
    omega
  split
  · next hthree =>
    refine ⟨_, [_, _], rfl, first_of_follow (lead?_three (by omega)) ?_⟩
    rw [List.cons_append, follow_cons (by omega) (by split <;> omega) (by split <;> omega), List.cons_append,
      follow_cons (by omega) (by omega) (by omega), follow, hn]
    congr 2
    omega
  · next hfour =>
    refine ⟨_, [_, _, _], rfl, first_of_follow (lead?_four (by omega)) ?_⟩
    rw [List.cons_append, follow_cons (by omega) (by split <;> omega) (by split <;> omega), List.cons_append,
      follow_cons (by omega) (by omega) (by omega), List.cons_append, follow_cons (by omega) (by omega) (by omega),
      follow, hn]
    congr 2
    omega

/-! ## A text -/

theorem decodeLossy_encode (cs : List Char) (r : List UInt8) : decodeLossy (encode cs ++ r) = cs ++ decodeLossy r := by
  induction cs with
  | nil => rfl
  | cons c cs ih =>
      obtain ⟨b, bs, hc, hfirst⟩ := first_encodeChar c (encode cs ++ r)
      have hcons : encode (c :: cs) ++ r = b :: (bs ++ (encode cs ++ r)) := by
        show encodeChar c ++ encode cs ++ r = _
        rw [hc, List.append_assoc]
        rfl
      rw [hcons, decodeLossy, hfirst]
      simp only [List.drop_left, ih, List.cons_append]

theorem encode_cons (c : Char) (cs : List Char) : encode (c :: cs) = encodeChar c ++ encode cs := rfl

theorem encode_append (cs cs' : List Char) : encode (cs ++ cs') = encode cs ++ encode cs' := List.flatMap_append

theorem encodeChar_eq (c : Char) : encodeChar c = String.utf8EncodeChar c := by
  have hc := toNat_char c
  have hval : c.val.toNat = c.toNat := rfl
  have hbyte {k m : Nat} (h : k = m) : UInt8.ofNat k = UInt8.ofNat m := congrArg UInt8.ofNat h
  simp only [encodeChar, String.utf8EncodeChar, hval]
  generalize c.toNat = n at hc
  by_cases hone : n < 0x80
  · rw [if_pos hone, if_pos (by omega : n ≤ 127)]
  rw [if_neg hone, if_neg (by omega : ¬ n ≤ 127)]
  by_cases htwo : n < 0x800
  · rw [if_pos htwo, if_pos (by omega : n ≤ 2047), hbyte (by omega : 0xC0 + n / 0x40 = n / 64 % 32 + 192),
      Nat.add_comm 0x80]
  rw [if_neg htwo, if_neg (by omega : ¬ n ≤ 2047)]
  by_cases hthree : n < 0x10000
  · rw [if_pos hthree, if_pos (by omega : n ≤ 65535), hbyte (by omega : 0xE0 + n / 0x1000 = n / 4096 % 16 + 224),
      Nat.add_comm 0x80, Nat.add_comm 0x80]
  · rw [if_neg hthree, if_neg (by omega : ¬ n ≤ 65535),
      hbyte (by omega : 0xF0 + n / 0x40000 = n / 262144 % 8 + 240), Nat.add_comm 0x80, Nat.add_comm 0x80,
      Nat.add_comm 0x80]

theorem toUTF8_ofList (cs : List Char) : (String.ofList cs).toUTF8.data.toList = encode cs := by
  show (cs.flatMap String.utf8EncodeChar).toByteArray.data.toList = _
  rw [List.data_toByteArray]
  show cs.flatMap String.utf8EncodeChar = cs.flatMap encodeChar
  rw [funext encodeChar_eq]

/-! ## Bytes below 128 -/

theorem encodeChar_ascii {c : Char} (h : c.toNat < 0x80) : encodeChar c = [UInt8.ofNat c.toNat] := if_pos h

/-- A byte below 128 stands for itself wherever it comes. -/
theorem ascii_of_mem_encodeChar {c : Char} {b : UInt8} (h : b ∈ encodeChar c) (hb : b.toNat < 0x80) :
    c.toNat = b.toNat := by
  have hc := toNat_char c
  unfold encodeChar at h
  generalize c.toNat = n at h hc
  simp only at h
  split at h
  · next hone =>
    rw [List.mem_singleton.1 h, toNat_byte (by omega)]
  -- every other byte has its first bit set
  · have hhigh : ∃ m, 0x80 ≤ m ∧ m < 256 ∧ b = UInt8.ofNat m := by
      split at h
      · simp only [List.mem_cons, List.not_mem_nil, or_false] at h
        rcases h with rfl | rfl <;> exact ⟨_, by omega, by omega, rfl⟩
      split at h
      · simp only [List.mem_cons, List.not_mem_nil, or_false] at h
        rcases h with rfl | rfl | rfl <;> exact ⟨_, by omega, by omega, rfl⟩
      · simp only [List.mem_cons, List.not_mem_nil, or_false] at h
        rcases h with rfl | rfl | rfl | rfl <;> exact ⟨_, by omega, by omega, rfl⟩
    obtain ⟨m, hlow, hsize, rfl⟩ := hhigh
    rw [toNat_byte hsize] at hb
    omega

end Harvesting.Utf8
