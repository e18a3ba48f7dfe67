import Harvesting.Output.Bulk
import Harvesting.Proofs.Text.Utf8

/-!
# What is kept of the body of a refusal

A fault that tells the status of a reply keeps the beginning of its body, up to 512 bytes and never a part
of a character.

* `Utf8.cut_isPrefix`, `Utf8.length_cut_le`, `Utf8.prefix_cut`, `Utf8.lt_length_cut` — what is cut off is the
  longest beginning that fits;
* `Utf8.startsChar`, `Utf8.isBoundary` — the places between bytes at which a character begins or the text
  ends; `Utf8.isBoundary_encode_iff` — these are the ends of its beginnings;
* `Utf8.truncate?`, `Utf8.cutBack?` — bytes cut off at the last such place within a budget, which is searched
  from behind; a cut at any other place has no result; `Utf8.cutBack?_encode` — there is always one;
* `Bulk.keeps_longest` — the result.
-/

namespace Harvesting

namespace Utf8

variable {c : Char} {cs p : List Char} {budget n : Nat}

/-! ## Beginnings that fit -/

theorem length_encodeChar (c : Char) : (encodeChar c).length = c.utf8Size := by
  rw [encodeChar_eq, String.length_utf8EncodeChar]

theorem length_encode_cons (c : Char) (cs : List Char) :
    (encode (c :: cs)).length = c.utf8Size + (encode cs).length := by
  rw [encode_cons, List.length_append, length_encodeChar]

theorem cut_isPrefix (budget : Nat) (cs : List Char) : cut budget cs <+: cs := by
  induction cs generalizing budget with
  | nil => exact List.nil_prefix
  | cons c cs ih =>
      rw [cut]
      split
      · exact List.cons_prefix_cons.2 ⟨rfl, ih _⟩
      · exact List.nil_prefix

theorem length_cut_le (budget : Nat) (cs : List Char) : (encode (cut budget cs)).length ≤ budget := by
  induction cs generalizing budget with
  | nil => exact Nat.zero_le _
  | cons c cs ih =>
      rw [cut]
      split
      · have hrest := ih (budget - c.utf8Size)
        rw [length_encode_cons]
        omega
      · exact Nat.zero_le _

/-- Every beginning that fits is a beginning of the one that is kept. -/
theorem prefix_cut (hp : p <+: cs) (hfits : (encode p).length ≤ budget) : p <+: cut budget cs := by
  induction cs generalizing p budget with
  | nil => exact hp
  | cons c cs ih =>
      rcases List.prefix_cons_iff.1 hp with rfl | ⟨p', rfl, hp'⟩
      · exact List.nil_prefix
      · rw [length_encode_cons] at hfits
        rw [cut, if_pos (by omega)]
        exact List.cons_prefix_cons.2 ⟨rfl, ih hp' (by omega)⟩

theorem cut_eq_self (hfits : (encode cs).length ≤ budget) : cut budget cs = cs :=
  (cut_isPrefix budget cs).eq_of_length_le (prefix_cut (List.prefix_refl cs) hfits).length_le

/-- The next character would not fit, and it has four bytes at most. -/
theorem lt_length_cut (hlong : budget < (encode cs).length) : budget < (encode (cut budget cs)).length + 4 := by
  induction cs generalizing budget with
  | nil => cases hlong
  | cons c cs ih =>
      rw [length_encode_cons] at hlong
      rw [cut]
      split
      · have hrest : budget - c.utf8Size < (encode (cut (budget - c.utf8Size) cs)).length + 4 := ih (by omega)
        rw [length_encode_cons]
        omega
      · have hsize := c.utf8Size_le_four
        show budget < 0 + 4
        omega

/-! ## Places between bytes -/

/-- The byte is the first one of a character, if it is part of one. -/
def startsChar (b : UInt8) : Bool := b.toNat < 0x80 || 0xC0 ≤ b.toNat

/-- A character begins after so many bytes, or the text ends there. -/
def isBoundary (bytes : List UInt8) (n : Nat) : Bool :=
  n == 0 || match bytes[n]? with
    | some b => startsChar b
    | none => n == bytes.length

theorem startsChar_encodeChar (c : Char) : ∃ b bs, encodeChar c = b :: bs ∧ startsChar b = true ∧
    ∀ x ∈ bs, startsChar x = false := by
  have hc := toNat_char c
  unfold encodeChar
  generalize c.toNat = n at hc
  -- the first byte keeps out of the range from 128 to 191, and every other byte is of it
  have hfirst {k : Nat} (hk : k < 256) (h : k < 0x80 ∨ 0xC0 ≤ k) : startsChar (UInt8.ofNat k) = true := by
    rw [startsChar, toNat_byte hk]
    simpa using h
  have hother {k : Nat} (hlo : 0x80 ≤ k) (hhi : k < 0xC0) : startsChar (UInt8.ofNat k) = false := by
    rw [startsChar, toNat_byte (by omega)]
    simp only [Bool.or_eq_false_iff, decide_eq_false_iff_not]
    omega
  simp only
  split
  · exact ⟨_, _, rfl, hfirst (by omega) (by omega), by simp⟩
  split
  · refine ⟨_, _, rfl, hfirst (by omega) (by omega), ?_⟩
    simp only [List.forall_mem_cons]
    exact ⟨hother (by omega) (by omega), List.forall_mem_nil _⟩
  split
  · refine ⟨_, _, rfl, hfirst (by omega) (by omega), ?_⟩
    simp only [List.forall_mem_cons]
    exact ⟨hother (by omega) (by omega), hother (by omega) (by omega), List.forall_mem_nil _⟩
  · refine ⟨_, _, rfl, hfirst (by omega) (by omega), ?_⟩
    simp only [List.forall_mem_cons]
    exact ⟨hother (by omega) (by omega), hother (by omega) (by omega), hother (by omega) (by omega),
      List.forall_mem_nil _⟩

/-- Behind other bytes, a place is further back by their number. -/
theorem isBoundary_append {bytes rest : List UInt8} (h : isBoundary (bytes ++ rest) (bytes.length + n) = true) :
    isBoundary rest n = true := by
  rw [isBoundary, List.getElem?_append_right (by omega), Nat.add_sub_cancel_left, List.length_append] at h
  rw [isBoundary]
  cases n with
  | zero => rfl
  | succ n =>
      cases hbyte : rest[n + 1]? with
      | some b => simpa [hbyte] using h
      | none => simpa [hbyte] using h

/-- There is no such place within a character. -/
theorem not_isBoundary_inside (hpos : 0 < n) (hn : n < (encodeChar c).length) (rest : List UInt8) :
    isBoundary (encodeChar c ++ rest) n = false := by
  obtain ⟨b, bs, hc, -, hbs⟩ := startsChar_encodeChar c
  rw [hc] at hn ⊢
  obtain ⟨k, rfl⟩ : ∃ k, n = k + 1 := ⟨n - 1, by omega⟩
  have hk : k < bs.length := by simpa using hn
  have hbyte : (b :: bs ++ rest)[k + 1]? = some bs[k] := by
    rw [List.cons_append, List.getElem?_cons_succ, List.getElem?_append_left hk, List.getElem?_eq_getElem hk]
  rw [isBoundary, hbyte]
  simp [hbs _ (List.getElem_mem hk)]

/-- The places at which a character begins or the text ends are the ends of the beginnings of a text. -/
theorem isBoundary_encode_iff : isBoundary (encode cs) n = true ↔ ∃ p, p <+: cs ∧ (encode p).length = n := by
  constructor
  · intro h
    induction cs generalizing n with
    | nil =>
        have hzero : n = 0 := by simpa [isBoundary, encode] using h
        exact ⟨[], List.nil_prefix, hzero.symm⟩
    | cons c cs ih =>
        rcases Nat.eq_zero_or_pos n with rfl | hpos
        · exact ⟨[], List.nil_prefix, rfl⟩
        · by_cases hinside : n < (encodeChar c).length
          · cases (not_isBoundary_inside hpos hinside (encode cs)).symm.trans h
          · obtain ⟨m, rfl⟩ := Nat.exists_eq_add_of_le (Nat.le_of_not_lt hinside)
            obtain ⟨p, hp, rfl⟩ := ih (isBoundary_append h)
            exact ⟨c :: p, List.cons_prefix_cons.2 ⟨rfl, hp⟩, by rw [encode_cons, List.length_append]⟩
  · rintro ⟨p, ⟨rest, rfl⟩, rfl⟩
    have hbyte : (encode p ++ encode rest)[(encode p).length]? = (encode rest)[0]? := by
      rw [List.getElem?_append_right (Nat.le_refl _), Nat.sub_self]
    rw [isBoundary, encode_append, hbyte]
    cases rest with
    | nil => simp [encode]
    | cons c rest =>
        obtain ⟨b, bs, hc, hb, -⟩ := startsChar_encodeChar c
        simp [encode_cons, hc, hb]

/-! ## Cutting bytes off -/

/-- The first bytes of a text, as long as they are not cut off within a character. -/
def truncate? (bytes : List UInt8) (n : Nat) : Option (List UInt8) :=
  if bytes.length < n then some bytes
  else if isBoundary bytes n then some (bytes.take n)
  else none

/-- Bytes that do not fit are cut off at the first place that is found from the budget downwards. -/
def cutBack? (budget : Nat) (bytes : List UInt8) : Option (List UInt8) :=
  if budget < bytes.length then
    truncate? bytes (((List.range (budget + 1)).reverse.find? (isBoundary bytes)).getD 0)
  else some bytes

/-- The last number with a property is the first one that is found downwards. -/
theorem find?_reverse_range {P : Nat → Bool} {m : Nat} (hm : P m = true) (hle : m ≤ n)
    (hlast : ∀ k, P k = true → k ≤ n → k ≤ m) : (List.range (n + 1)).reverse.find? P = some m := by
  induction n with
  | zero =>
      obtain rfl := Nat.le_zero.1 hle
      simp [hm]
  | succ n ih =>
      rw [List.range_succ, List.reverse_concat, List.find?_cons]
      cases hP : P (n + 1) with
      | true =>
          have hlt := hlast (n + 1) hP (Nat.le_refl _)
          rw [Nat.le_antisymm hle hlt]
      | false =>
          have hne : m ≠ n + 1 := by
            rintro rfl
            cases hP.symm.trans hm
          exact ih (by omega) fun k hk hkn => hlast k hk (by omega)

/-- The search from behind finds a place at which the text may be cut, and what is kept is as long as can be. -/
theorem cutBack?_encode (budget : Nat) (cs : List Char) :
    cutBack? budget (encode cs) = some (encode (cut budget cs)) := by
  rw [cutBack?]
  split
  · have hcut := cut_isPrefix budget cs
    have hboundary : isBoundary (encode cs) (encode (cut budget cs)).length = true :=
      isBoundary_encode_iff.2 ⟨_, hcut, rfl⟩
    have hfound : (List.range (budget + 1)).reverse.find? (isBoundary (encode cs)) =
        some (encode (cut budget cs)).length := by
      apply find?_reverse_range hboundary (length_cut_le budget cs)
      intro k hk hkn
      obtain ⟨p, hp, rfl⟩ := isBoundary_encode_iff.1 hk
      obtain ⟨rest, hrest⟩ := prefix_cut hp hkn
      rw [← hrest, encode_append, List.length_append]
      omega
    obtain ⟨rest, hrest⟩ := hcut
    have hbytes : encode cs = encode (cut budget cs) ++ encode rest := by rw [← encode_append, hrest]
    have hle : (encode (cut budget cs)).length ≤ (encode cs).length := by
      rw [hbytes, List.length_append]
      omega
    rw [hfound, Option.getD_some, truncate?, if_neg (by omega), if_pos hboundary]
    congr 1
    conv => lhs; rw [hbytes]
    exact List.take_left
  · next hfits => rw [cut_eq_self (by omega)]

end Utf8

namespace Bulk

open Utf8 (isBoundary cutBack?)

/--
The body of a reply that refuses a batch, as the fault keeps it. It is a beginning of the whole body and ends
where one of its characters does. It has 512 bytes at most, and it is the whole body if that has no more. No
longer beginning fits, and since no character has more than four bytes it has at least 509 otherwise. The
search for its end from behind always finds one, and never cuts within a character.
-/
theorem keeps_longest (endpoint : Address) (timeout : Span) (total : Nat) {r : Response}
    (hrefuses : r.isSuccess = false) :
    ∃ kept : String, verdict endpoint timeout total (.answered r) = .error (.status r.status kept) ∧
      kept.toList <+: r.text ∧
      isBoundary (Utf8.encode r.text) (Utf8.encode kept.toList).length = true ∧
      (Utf8.encode kept.toList).length ≤ 512 ∧
      ((Utf8.encode r.text).length ≤ 512 → kept.toList = r.text) ∧
      (∀ n ≤ 512, isBoundary (Utf8.encode r.text) n = true → n ≤ (Utf8.encode kept.toList).length) ∧
      (512 < (Utf8.encode r.text).length → 509 ≤ (Utf8.encode kept.toList).length) ∧
      cutBack? 512 (Utf8.encode r.text) = some (Utf8.encode kept.toList) := by
  have hkept := Utf8.cut_isPrefix 512 r.text
  refine ⟨String.ofList (Utf8.cut 512 r.text), ?_, ?_⟩
  · rw [verdict, if_neg (by simp [hrefuses])]
    rfl
  rw [String.toList_ofList]
  refine ⟨hkept, Utf8.isBoundary_encode_iff.2 ⟨_, hkept, rfl⟩, Utf8.length_cut_le 512 r.text, Utf8.cut_eq_self, ?_, ?_,
    Utf8.cutBack?_encode 512 r.text⟩
  · intro n hn hboundary
    obtain ⟨p, hp, rfl⟩ := Utf8.isBoundary_encode_iff.1 hboundary
    obtain ⟨rest, hrest⟩ := Utf8.prefix_cut hp hn
    rw [← hrest, Utf8.encode_append, List.length_append]
    exact Nat.le_add_right _ _
  · intro hlong
    have htight := Utf8.lt_length_cut hlong
    omega

/-- A body with a character of four bytes behind 510 others, and one behind that. -/
def longText : List Char := List.replicate 510 'a' ++ ['😀', 'b']

/-- Where documents are sent in bulk. -/
def sampleEndpoint : Address := ⟨"http", "", "", some (.name "localhost"), some 9200, .segments ["_bulk"], none, none⟩

/-- A refusal with this body. -/
def longRefusal : Response := ⟨500, [], Utf8.encode longText⟩

theorem text_longRefusal : longRefusal.text = longText := by
  have hread := Utf8.decodeLossy_encode longText []
  rw [List.append_nil, Utf8.decodeLossy, List.append_nil] at hread
  exact hread

theorem keeps_longest_cut :
    longRefusal.isSuccess = false ∧ (Utf8.encode longRefusal.text).length = 515 ∧
      ∃ kept : String, verdict sampleEndpoint .zero 1 (.answered longRefusal) = .error (.status 500 kept) ∧
        (Utf8.encode kept.toList).length = 510 := by
  obtain ⟨kept, hverdict, -, hends, hfits, -, hlongest, -, -⟩ := keeps_longest sampleEndpoint .zero 1 (r := longRefusal) rfl
  rw [text_longRefusal] at hends hlongest ⊢
  refine ⟨rfl, by decide +kernel, kept, hverdict, ?_⟩
  have hleast := hlongest 510 (by decide) (by decide +kernel)
  -- the character lies across the places behind it
  have hinside : ∀ n, 510 < n → n ≤ 512 → isBoundary (Utf8.encode longText) n = false := by
    intro n hlo hhi
    obtain rfl | rfl : n = 511 ∨ n = 512 := by omega
    · decide +kernel
    · decide +kernel
  generalize (Utf8.encode kept.toList).length = n at hends hfits hleast ⊢
  rcases Nat.eq_or_lt_of_le hleast with hleast | hmore
  · exact hleast.symm
  · cases (hinside n hmore hfits).symm.trans hends

end Bulk

end Harvesting
