import Harvesting.Proofs.Time.Datestamp
import Harvesting.Tree.Bound

/-!
# Datestamps that are accepted

What is accepted as a datestamp has no fraction of a second, whatever its granularity and its offset. It
is read again as it was written if its year has four digits, and refused otherwise.

* `Instant.FourDigits` — the years that the grammar of timestamps can write;
* `Stamp.fraction_lt`, `Stamp.offset_minutes` — what the parts of a timestamp can say;
* `Stamp.shown_of_lenient` — a timestamp names a moment that a clock shows;
* `Datestamp.Accepted` — the instants that a datestamp names; `Accepted.settled` — they are whole seconds,
  leap seconds among them;
* `Datestamp.reparse_eq` — an accepted datestamp that is written and read again.
-/

namespace Harvesting

/-- The instant lies in a year of four digits. -/
def Instant.FourDigits (t : Instant) : Prop :=
  0 ≤ (Date.ofDays t.day).year ∧ (Date.ofDays t.day).year ≤ 9999

instance : DecidablePred Instant.FourDigits := fun _ => inferInstanceAs (Decidable (_ ∧ _))

/-! ## Parts of a timestamp -/

namespace Stamp

open Text.Decimal

theorem numeralFrom_lt {ds : List Char} (h : ∀ c ∈ ds, c.isDigit = true) (acc : Nat) :
    numeralFrom acc ds < (acc + 1) * Nat.pow 10 ds.length := by
  induction ds generalizing acc with
  | nil => simp [numeralFrom]
  | cons c r ih =>
      have hdigit : c.toNat - '0'.toNat ≤ 9 := by
        have hc : 48 ≤ c.toNat ∧ c.toNat ≤ 57 := by
          simpa [Char.isDigit, UInt32.le_iff_toNat_le] using h c List.mem_cons_self
        have hzero : '0'.toNat = 48 := rfl
        omega
      have hrest := ih (fun x hx => h x (List.mem_cons_of_mem c hx)) (10 * acc + (c.toNat - '0'.toNat))
      calc numeralFrom acc (c :: r)
          = numeralFrom (10 * acc + (c.toNat - '0'.toNat)) r := rfl
        _ < (10 * acc + (c.toNat - '0'.toNat) + 1) * Nat.pow 10 r.length := hrest
        _ ≤ ((acc + 1) * 10) * Nat.pow 10 r.length := Nat.mul_le_mul_right _ (by omega)
        _ = (acc + 1) * (Nat.pow 10 r.length * 10) := by rw [Nat.mul_assoc, Nat.mul_comm 10]
        _ = (acc + 1) * Nat.pow 10 (c :: r).length := rfl

/-- A fraction is less than a second: digits beyond the ninth do not count. -/
theorem fraction_lt {cs rest : List Char} {n : Nat} (h : fraction cs = .ok (n, rest)) :
    n < Instant.nanosPerSec := by
  rw [fraction.eq_def] at h
  split at h
  · next r =>
    obtain ⟨⟨m, left⟩, hnumber, hn⟩ := bind_eq_ok.1 h
    cases hn
    rw [number] at hnumber
    generalize hds : (r.take 9).takeWhile Char.isDigit = ds at hnumber
    have hnine : ds.length ≤ 9 ∧ ds.length ≤ r.length := by
      have hshort := (List.takeWhile_sublist Char.isDigit (l := r.take 9)).length_le
      rw [hds, List.length_take] at hshort
      omega
    have hdigits : ∀ c ∈ ds, c.isDigit = true := by
      rw [← hds]
      exact List.all_eq_true.1 List.all_takeWhile
    have hread : m = numeral ds ∧ left = r.drop ds.length := by
      split at hnumber
      · cases hnumber
      · split at hnumber
        · cases hnumber
        · split at hnumber
          · cases hnumber
          · cases hnumber
            exact ⟨rfl, rfl⟩
    have hplaces : r.length - left.length = ds.length := by
      rw [hread.2, List.length_drop]
      omega
    have hnumeral : numeral ds < Nat.pow 10 ds.length := by
      have hbound := numeralFrom_lt hdigits 0
      rwa [Nat.zero_add, Nat.one_mul] at hbound
    rw [hplaces, hread.1]
    calc numeral ds * Nat.pow 10 (9 - ds.length)
        < Nat.pow 10 ds.length * Nat.pow 10 (9 - ds.length) :=
          Nat.mul_lt_mul_of_pos_right hnumeral (Nat.pow_pos (by decide))
      _ = Nat.pow 10 (ds.length + (9 - ds.length)) := (Nat.pow_add 10 _ _).symm
      _ = Nat.pow 10 9 := by rw [Nat.add_sub_cancel' hnine.1]
  · cases h
    decide

theorem clock_fraction {num : List Char → Except Fault (Nat × List Char)}
    {colon : List Char → Except Fault (Unit × List Char)} {cs rest : List Char} {hour minute second nanos : Nat}
    (h : clock num colon cs = .ok ((hour, minute, second, nanos), rest)) : nanos < Instant.nanosPerSec := by
  obtain ⟨⟨_, _⟩, -, h⟩ := bind_eq_ok.1 h
  obtain ⟨_, -, h⟩ := bind_eq_ok.1 h
  obtain ⟨⟨⟨⟩, _⟩, -, h⟩ := bind_eq_ok.1 h
  obtain ⟨⟨_, _⟩, -, h⟩ := bind_eq_ok.1 h
  obtain ⟨_, -, h⟩ := bind_eq_ok.1 h
  obtain ⟨⟨⟨⟩, _⟩, -, h⟩ := bind_eq_ok.1 h
  obtain ⟨⟨_, _⟩, -, h⟩ := bind_eq_ok.1 h
  obtain ⟨_, -, h⟩ := bind_eq_ok.1 h
  obtain ⟨⟨_, _⟩, hfraction, h⟩ := bind_eq_ok.1 h
  cases h
  exact fraction_lt hfraction

/-- Offsets are whole minutes. -/
theorem offset_minutes {between : List Char → Except Fault (Unit × List Char)} {cs rest : List Char} {off : Int}
    (h : offset between cs = .ok (off, rest)) : off % 60 = 0 := by
  rw [offset.eq_def] at h
  split at h
  · cases h
    rfl
  · cases h
    rfl
  · obtain ⟨⟨negative, _⟩, -, h⟩ := bind_eq_ok.1 h
    obtain ⟨⟨hours, _⟩, -, h⟩ := bind_eq_ok.1 h
    obtain ⟨⟨⟨⟩, _⟩, -, h⟩ := bind_eq_ok.1 h
    obtain ⟨⟨minutes, _⟩, -, h⟩ := bind_eq_ok.1 h
    simp only at h
    split at h
    · obtain ⟨_, hrange, -⟩ := bind_eq_ok.1 h
      cases hrange
    · cases h
      split <;> omega

theorem lenientOffset_minutes {cs rest : List Char} {off : Int} (h : lenientOffset cs = .ok (off, rest)) :
    off % 60 = 0 := by
  rw [lenientOffset.eq_def] at h
  split at h
  · split at h
    · cases h
      rfl
    · exact offset_minutes h
  · exact offset_minutes h

/-- Fields name moments that a clock shows: second 60 is the only leap second. -/
theorem shown_of_instant? {f : Fields} {t : Instant} (h : f.instant? = .ok t)
    (hnanos : f.nanos < Instant.nanosPerSec) (hoffset : f.offset % 60 = 0) : t.Shown := by
  rw [Fields.instant?] at h
  generalize hparts : f.nanos + (if f.second = 60 then Instant.nanosPerSec else 0) = nanos at h
  simp only at h
  split at h
  · obtain ⟨_, hrange, -⟩ := bind_eq_ok.1 h
    cases hrange
  split at h
  · obtain ⟨_, hrange, -⟩ := bind_eq_ok.1 h
    cases hrange
  split at h
  · next hrange =>
    cases h
    refine ⟨?_, ?_, hrange⟩
    · dsimp only
      split at hparts <;> omega
    · intro hleap
      have habove : Instant.nanosPerSec ≤ nanos := by simpa [Instant.isLeap] using hleap
      rw [Instant.secOfDay_emod]
      split at hparts
      · next hsecond =>
        simp only [hsecond, Instant.secsPerDay]
        omega
      · omega
  · cases h

theorem leap_of_strict {cs : List Char} {t : Instant} (h : strict cs = .ok t) (hleap : t.isLeap = true) :
    t.secs % 60 = 59 := by
  obtain ⟨⟨_, _⟩, -, h⟩ := bind_eq_ok.1 h
  obtain ⟨⟨⟨⟩, _⟩, -, h⟩ := bind_eq_ok.1 h
  obtain ⟨⟨_, _⟩, -, h⟩ := bind_eq_ok.1 h
  obtain ⟨_, -, h⟩ := bind_eq_ok.1 h
  obtain ⟨⟨⟨⟩, _⟩, -, h⟩ := bind_eq_ok.1 h
  obtain ⟨⟨_, _⟩, -, h⟩ := bind_eq_ok.1 h
  obtain ⟨_, -, h⟩ := bind_eq_ok.1 h
  obtain ⟨⟨⟨⟩, _⟩, -, h⟩ := bind_eq_ok.1 h
  obtain ⟨⟨⟨_, _, _, _⟩, _⟩, hclock, h⟩ := bind_eq_ok.1 h
  obtain ⟨⟨off, _⟩, hoffset, h⟩ := bind_eq_ok.1 h
  simp only at h
  split at h
  · obtain ⟨_, hrange, -⟩ := bind_eq_ok.1 h
    cases hrange
  split at h
  · obtain ⟨_, hlong, -⟩ := bind_eq_ok.1 h
    cases hlong
  rw [← Instant.secOfDay_emod]
  exact (shown_of_instant? h (clock_fraction hclock) (offset_minutes hoffset)).leap hleap

/-- Whatever is read as a timestamp is a moment that a clock shows. -/
theorem shown_of_lenient {cs : List Char} {t : Instant} (h : lenient cs = .ok t) : t.Shown := by
  obtain ⟨⟨_, _⟩, -, h⟩ := bind_eq_ok.1 h
  obtain ⟨⟨⟨⟩, _⟩, -, h⟩ := bind_eq_ok.1 h
  obtain ⟨⟨⟨_, _, _, _⟩, _⟩, hclock, h⟩ := bind_eq_ok.1 h
  obtain ⟨⟨off, _⟩, hoffset, h⟩ := bind_eq_ok.1 h
  simp only at h
  split at h
  · obtain ⟨_, hlong, -⟩ := bind_eq_ok.1 h
    cases hlong
  exact shown_of_instant? h (clock_fraction hclock) (lenientOffset_minutes hoffset)

end Stamp

/-! ## Accepted datestamps -/

/-- The instant has no fraction of a second; it may be a leap second. -/
structure Instant.Settled (t : Instant) : Prop where
  nanos : t.nanos = 0 ∨ t.nanos = nanosPerSec
  leap : t.isLeap = true → t.secs % 60 = 59

theorem Instant.Settled.whole {t : Instant} (h : t.Settled) : t.nanos % nanosPerSec = 0 := by
  rcases h.nanos with hnanos | hnanos <;> rw [hnanos] <;> rfl

theorem Instant.Settled.dated {t : Instant} (h : t.Settled) (hyear : t.FourDigits) : t.Dated where
  nanos := by rcases h.nanos with hnanos | hnanos <;> rw [hnanos] <;> decide
  leap hleap := by rw [secOfDay_emod, h.leap hleap]
  year := hyear
  whole := h.whole

namespace Datestamp

variable {raw : String} {t : Instant}

/-- The instant is what a datestamp names. -/
def Accepted (t : Instant) : Prop := ∃ raw, parse raw = .ok t

theorem Accepted.settled (h : Accepted t) : t.Settled := by
  obtain ⟨raw, h⟩ := h
  rw [parse] at h
  split at h
  · next t' hstrict =>
    cases h
    refine ⟨?_, ?_⟩
    · rw [Instant.truncate]
      dsimp only
      split
      · exact .inr rfl
      · exact .inl rfl
    · rw [Instant.isLeap_truncate]
      exact Stamp.leap_of_strict hstrict
  · split at h
    · cases h
      refine ⟨.inl rfl, ?_⟩
      intro hleap
      cases hleap
    · cases h

/-- The fault tells the text without the blanks around it. -/
theorem fault_of_parse {f : Fault} (h : parse raw = .error f) : f = ⟨String.ofList (Text.trim raw.toList)⟩ := by
  rw [parse] at h
  split at h
  · cases h
  · split at h
    · cases h
    · cases h
      rfl

/-- An accepted datestamp that is written is read as it was, or it is refused because of its year. -/
theorem reparse_eq (h : Accepted t) :
    parse (format t) = if t.FourDigits then .ok t else .error ⟨format t⟩ := by
  by_cases hyear : t.FourDigits
  · rw [if_pos hyear]
    exact parse_dated (h.settled.dated hyear)
  · rw [if_neg hyear]
    cases hparse : parse (format t) with
    | ok t' => exact absurd (year_of_parse_format hparse) hyear
    | error f => rw [fault_of_parse hparse, trim_format, String.ofList_toList]

theorem parse_reparse_iff (h : Accepted t) : parse (format t) = .ok t ↔ t.FourDigits := by
  rw [reparse_eq h]
  split
  · next hyear => exact iff_of_true rfl hyear
  · next hyear => exact iff_of_false nofun hyear

end Datestamp

end Harvesting
