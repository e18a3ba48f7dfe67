import Harvesting.Proofs.Text.Utf8
import Harvesting.Web.Form

/-!
# Forms are read as they were written

* `Percent.decode_encodeByte` — a byte comes back from its percent-encoding;
* `Form.isCode` — the characters of an encoded name or value, none of which separates anything;
* `Form.decodeText_encode` — a name or value comes back as it was, whatever characters it has;
* `Form.decode_append` — pairs that are added to a query come behind those that are there already.
-/

namespace Harvesting

/-! ## Bytes -/

namespace Percent

theorem decode_cons {b : UInt8} (h : b.toNat ≠ 37) : ∀ r, decode (b :: r) = b :: decode r
  | [] => rfl
  | [_] => rfl
  | _ :: _ :: _ => by rw [decode, if_neg h]

/-- A digit is an ASCII character, and as a byte it has its value. -/
theorem hexDigit_ascii : ∀ n < 16, (hexDigit n).toNat < 0x80 ∧
    hexValue? (UInt8.ofNat (hexDigit n).toNat) = some n := by
  decide

theorem decode_encodeByte (b : UInt8) (r : List UInt8) :
    decode (Utf8.encode (encodeByte b) ++ r) = b :: decode r := by
  have hb := b.toNat_lt
  obtain ⟨hhigh, hhighValue⟩ := hexDigit_ascii (b.toNat / 16) (by omega)
  obtain ⟨hlow, hlowValue⟩ := hexDigit_ascii (b.toNat % 16) (by omega)
  have hbytes : Utf8.encode (encodeByte b) = [37, UInt8.ofNat (hexDigit (b.toNat / 16)).toNat,
      UInt8.ofNat (hexDigit (b.toNat % 16)).toNat] := by
    rw [encodeByte, Utf8.encode_cons, Utf8.encode_cons, Utf8.encode_cons, Utf8.encodeChar_ascii hhigh,
      Utf8.encodeChar_ascii hlow]
    rfl
  have hvalue : UInt8.ofNat (16 * (b.toNat / 16) + b.toNat % 16) = b := by
    rw [Nat.div_add_mod, UInt8.ofNat_toNat]
  rw [hbytes]
  show decode (37 :: _ :: _ :: r) = _
  have hpercent : (37 : UInt8).toNat = 37 := rfl
  rw [decode, if_pos hpercent, hhighValue, hlowValue]
  simp only [hvalue]

end Percent

/-! ## Names and values -/

namespace Form

/-- The character can stand in an encoded name or value. -/
def isCode (c : Char) : Bool :=
  c.isAlphanum || c = '*' || c = '-' || c = '.' || c = '_' || c = '+' || c = '%'

theorem isCode_encodeByte (b : UInt8) : ∀ c ∈ encodeByte b, isCode c = true := by
  have hplain : ∀ n < 256, isPlain (UInt8.ofNat n) = true → isCode (Char.ofNat n) = true := by decide +kernel
  have hdigit : ∀ n < 16, isCode (Percent.hexDigit n) = true := by decide
  have hb := b.toNat_lt
  intro c hc
  rw [encodeByte] at hc
  split at hc
  · next hclass =>
    rw [List.mem_singleton.1 hc]
    exact hplain _ hb (by rwa [UInt8.ofNat_toNat])
  split at hc
  · rw [List.mem_singleton.1 hc]
    rfl
  · simp only [Percent.encodeByte, List.mem_cons, List.not_mem_nil, or_false] at hc
    rcases hc with rfl | rfl | rfl
    · rfl
    · exact hdigit _ (by omega)
    · exact hdigit _ (by omega)

theorem isCode_encode {cs : List Char} : ∀ c ∈ encode cs, isCode c = true := by
  intro c hc
  obtain ⟨b, -, hb⟩ := List.mem_flatMap.1 hc
  exact isCode_encodeByte b c hb

/-- An encoded name or value has no character that is none of its code. -/
theorem notMem_encode {c : Char} (hc : isCode c = false) (cs : List Char) : c ∉ encode cs := by
  intro hmem
  rw [isCode_encode c hmem] at hc
  cases hc

theorem unplus_cons {c : Char} (hc : c ≠ '+') (cs : List Char) : unplus (c :: cs) = c :: unplus cs := by
  show (if c = '+' then ' ' else c) :: unplus cs = _
  rw [if_neg hc]

/-- A byte comes back from what stands for it in a form. -/
theorem decode_encodeByte (b : UInt8) (cs : List Char) :
    Percent.decode (Utf8.encode (unplus (encodeByte b ++ cs))) = b :: Percent.decode (Utf8.encode (unplus cs)) := by
  have hb := b.toNat_lt
  rw [encodeByte]
  split
  · next hclass =>
    have hplain : ∀ n < 256, isPlain (UInt8.ofNat n) = true →
        n < 0x80 ∧ n ≠ 37 ∧ Char.ofNat n ≠ '+' ∧ (Char.ofNat n).toNat = n := by decide +kernel
    obtain ⟨hascii, hpercent, hplus, hvalue⟩ := hplain _ hb (by rwa [UInt8.ofNat_toNat])
    rw [List.singleton_append, unplus_cons hplus, Utf8.encode_cons, Utf8.encodeChar_ascii (by omega), hvalue,
      UInt8.ofNat_toNat]
    exact Percent.decode_cons hpercent _
  split
  · next hspace =>
    have hbyte : b = 32 := UInt8.toNat_inj.1 hspace
    subst hbyte
    exact Percent.decode_cons (by decide) _
  · have hdigit : ∀ n < 16, Percent.hexDigit n ≠ '+' := by decide
    have hunplus : unplus (Percent.encodeByte b ++ cs) = Percent.encodeByte b ++ unplus cs := by
      show unplus ('%' :: _ :: _ :: cs) = _
      rw [unplus_cons (by decide), unplus_cons (hdigit _ (by omega)), unplus_cons (hdigit _ (by omega))]
      rfl
    rw [hunplus, Utf8.encode_append]
    exact Percent.decode_encodeByte b _

theorem decode_encodeBytes (bs : List UInt8) :
    Percent.decode (Utf8.encode (unplus (bs.flatMap encodeByte))) = bs := by
  induction bs with
  | nil => rfl
  | cons b bs ih => rw [List.flatMap_cons, decode_encodeByte, ih]

/-- Any text comes back as it was. -/
theorem decodeText_encode (cs : List Char) : decodeText (encode cs) = String.ofList cs := by
  have htext := Utf8.decodeLossy_encode cs []
  have hend : Utf8.decodeLossy [] = [] := by rw [Utf8.decodeLossy]
  rw [hend, List.append_nil, List.append_nil] at htext
  rw [decodeText, encode, decode_encodeBytes, htext]

/-! ## Pairs -/

theorem decodePair_encodePair (p : String × String) : decodePair (encodePair p) = p := by
  have hname : ∀ c ∈ encode p.1.toList, decide (c ≠ '=') = true := by
    intro c hc
    apply decide_eq_true
    rintro rfl
    exact notMem_encode rfl _ hc
  rw [decodePair, encodePair, List.takeWhile_append_of_pos hname, List.dropWhile_append_of_pos hname]
  simp [decodeText_encode]

theorem encodePair_ne_nil (p : String × String) : encodePair p ≠ [] := by
  simp [encodePair]

theorem notMem_encodePair {c : Char} (hc : isCode c = false) (heq : c ≠ '=') (p : String × String) :
    c ∉ encodePair p := by
  rw [encodePair, List.mem_append, List.mem_cons]
  rintro (h | h | h)
  · exact notMem_encode hc _ h
  · exact heq h
  · exact notMem_encode hc _ h

theorem parts_ne_nil : ∀ cs, parts cs ≠ []
  | [] => by simp [parts]
  | c :: r => by
    rw [parts]
    split
    · simp
    · split <;> simp

theorem parts_append (cs r : List Char) : parts (cs ++ '&' :: r) = parts cs ++ parts r := by
  induction cs with
  | nil => rfl
  | cons c cs ih =>
      rw [List.cons_append, parts, parts, ih]
      split
      · rfl
      · cases hparts : parts cs with
        | nil => exact absurd hparts (parts_ne_nil cs)
        | cons p ps => rfl

theorem parts_of_notMem : ∀ {cs : List Char}, '&' ∉ cs → parts cs = [cs]
  | [], _ => rfl
  | c :: cs, h => by
    have hc : c ≠ '&' := fun hc => h (hc ▸ List.mem_cons_self)
    rw [parts, if_neg hc, parts_of_notMem fun hmem => h (List.mem_cons_of_mem c hmem)]

theorem decode_single (p : String × String) : decode (encodePair p) = [p] := by
  have hamp : '&' ∉ encodePair p := notMem_encodePair rfl (by decide) p
  rw [decode, parts_of_notMem hamp]
  simp [encodePair_ne_nil, decodePair_encodePair]

/-- An empty part at the end of the query does no harm. -/
theorem decode_snoc (query : List Char) (p : String × String) :
    decode ((if query = [] then [] else query ++ ['&']) ++ encodePair p) = decode query ++ [p] := by
  split
  · next hnil =>
    subst hnil
    exact decode_single p
  · have hparts : decode (query ++ '&' :: encodePair p) = decode query ++ decode (encodePair p) := by
      rw [decode, parts_append, List.filter_append, List.map_append]
      rfl
    rw [List.append_assoc, List.singleton_append, hparts, decode_single]

theorem decode_append (query : List Char) (ps : List (String × String)) :
    decode (append query ps) = decode query ++ ps := by
  induction ps generalizing query with
  | nil => rw [append, List.append_nil]
  | cons p ps ih => rw [append, ih, decode_snoc, List.append_assoc, List.singleton_append]

end Form

end Harvesting
