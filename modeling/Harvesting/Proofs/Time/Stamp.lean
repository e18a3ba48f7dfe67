import Harvesting.Proofs.Except
import Harvesting.Proofs.Text.Blank
import Harvesting.Proofs.Text.Decimal
import Harvesting.Proofs.Time.Calendar
import Harvesting.Time.Stamp

/-!
# Timestamps are read as they were written

* `Instant.Shown` — a moment that a clock shows; `Instant.Writable` — one in a year of four digits;
* `Stamp.number_padded` and its like — the parts of a timestamp, whatever follows them;
* `Stamp.clock_clockText`, `Stamp.instant?_fields` — the time of day, and the instant of all parts;
* `Stamp.strict_secondsText` — an instant written in seconds comes back without its fraction;
* `Stamp.lenient_text` — an instant written in full comes back as it was.
-/

namespace Harvesting

/-! ## Parts of a timestamp -/

namespace Stamp

open Text.Decimal

/-- A numeral of the full width is read up to its end, whatever follows. -/
theorem number_padded {least width n : Nat} {rest : List Char} (hl : least ≤ width) (hw : 0 < width)
    (hn : n < Nat.pow 10 width) (hmax : n ≤ maxNumber) :
    number least (some width) ((padded width n).toList ++ rest) = .ok (n, rest) := by
  have hlen := length_padded hw hn
  have hdigits : ((padded width n).toList).takeWhile Char.isDigit = (padded width n).toList := by
    have happend : ((padded width n).toList ++ []).takeWhile Char.isDigit = (padded width n).toList ++ [] :=
      List.takeWhile_append_of_pos fun c hc => isDigit_of_mem_padded hc
    simpa using happend
  have htake : ((padded width n).toList ++ rest).take width = (padded width n).toList := by
    rw [List.take_append_of_le_length (by omega), List.take_of_length_le (by omega)]
  have hbytes := Utf8.length_le ((padded width n).toList ++ rest)
  rw [List.length_append] at hbytes
  simp only [number, htake, hdigits, numeral_padded, hlen]
  rw [if_neg (by omega), if_neg (by omega), if_neg (by omega), List.drop_append_of_le_length (by omega),
    List.drop_of_length_le (by omega), List.nil_append]

theorem number_padded_two {n : Nat} (hn : n < 100) (rest : List Char) :
    number 2 (some 2) ((padded 2 n).toList ++ rest) = .ok (n, rest) :=
  number_padded (by omega) (by omega) hn (by unfold maxNumber; omega)

/-- Where no number of digits is set, a numeral is read up to the next character that is no digit. -/
theorem number_padded_none {width n : Nat} {c : Char} {rest : List Char} (hc : c.isDigit = false)
    {a : Nat × List Char}
    (h : number 1 none ((padded width n).toList ++ c :: rest) = .ok a) : a = (n, c :: rest) := by
  have hlen := le_length_padded width n
  have hdigits : ((padded width n).toList ++ c :: rest).takeWhile Char.isDigit = (padded width n).toList := by
    rw [List.takeWhile_append_of_pos fun c hc => isDigit_of_mem_padded hc]
    simp [hc]
  simp only [number, hdigits, numeral_padded] at h
  split at h
  · cases h
  split at h
  · cases h
  split at h
  · cases h
  cases h
  rw [List.drop_append_of_le_length (by omega), List.drop_of_length_le (by omega), List.nil_append]

theorem number_padded_free {width n : Nat} {c : Char} (hc : c.isDigit = false) (hw : 0 < width) (hmax : n ≤ maxNumber)
    (rest : List Char) : number 1 none ((padded width n).toList ++ c :: rest) = .ok (n, c :: rest) := by
  have hlen := le_length_padded width n
  have hdigits : ((padded width n).toList ++ c :: rest).takeWhile Char.isDigit = (padded width n).toList := by
    rw [List.takeWhile_append_of_pos fun c hc => isDigit_of_mem_padded hc]
    simp [hc]
  have hbytes := Utf8.length_le ((padded width n).toList ++ c :: rest)
  rw [List.length_append] at hbytes
  simp only [number, hdigits, numeral_padded]
  rw [if_neg (by omega), if_neg (by omega), if_neg (by omega), List.drop_append_of_le_length (by omega),
    List.drop_of_length_le (by omega), List.nil_append]

/-- A numeral that is not longer than the reader allows is read up to the next character that is no digit. -/
theorem number_padded_apart {least most width n : Nat} {c : Char} {rest : List Char} (hc : c.isDigit = false)
    (hl : least ≤ width) (hw : 0 < width) (hm : width ≤ most) (hn : n < Nat.pow 10 width) (hmax : n ≤ maxNumber) :
    number least (some most) ((padded width n).toList ++ c :: rest) = .ok (n, c :: rest) := by
  have hlen := length_padded hw hn
  have hdigits : (((padded width n).toList ++ c :: rest).take most).takeWhile Char.isDigit =
      (padded width n).toList := by
    rw [List.take_append, List.take_of_length_le (by omega),
      List.takeWhile_append_of_pos fun c hc => isDigit_of_mem_padded hc]
    cases most - (padded width n).toList.length <;> simp [hc]
  have hbytes := Utf8.length_le ((padded width n).toList ++ c :: rest)
  rw [List.length_append] at hbytes
  simp only [number, hdigits, numeral_padded, hlen]
  rw [if_neg (by omega), if_neg (by omega), if_neg (by omega), List.drop_append_of_le_length (by omega),
    List.drop_of_length_le (by omega), List.nil_append]

theorem trimStart_padded {width : Nat} (hw : 0 < width) (n : Nat) (rest : List Char) :
    Text.trimStart ((padded width n).toList ++ rest) = (padded width n).toList ++ rest := by
  have hlen := le_length_padded width n
  cases hcs : (padded width n).toList with
  | nil =>
      rw [hcs, List.length_nil] at hlen
      omega
  | cons c r =>
      have hc := Text.isBlank_of_isDigit (isDigit_of_mem_padded (hcs ▸ List.mem_cons_self : c ∈ _))
      simp [Text.trimStart, hc]

theorem short_padded {n : Nat} (h : n < 100) (rest : List Char) :
    short ((padded 2 n).toList ++ rest) = .ok (n, rest) := by
  rw [short, trimStart_padded (by omega)]
  exact number_padded (by omega) (by omega) (by omega) (by unfold maxNumber; omega)

theorem spaced_colon (rest : List Char) : spaced ':' (':' :: rest) = .ok ((), rest) := rfl

/-- A fraction is read up to the next character that is no digit. -/
theorem fraction_padded {places n : Nat} (hpos : 0 < places) (hplaces : places ≤ 9) (hn : n < Nat.pow 10 places)
    (rest : List Char) :
    fraction ('.' :: ((padded places n).toList ++ 'Z' :: rest)) = .ok (n * Nat.pow 10 (9 - places), 'Z' :: rest) := by
  have hmax : n ≤ maxNumber := by
    have hpow : Nat.pow 10 places ≤ Nat.pow 10 9 := Nat.pow_le_pow_right (by omega) hplaces
    have hnine : Nat.pow 10 9 = 1000000000 := rfl
    unfold maxNumber
    omega
  have hlen : ((padded places n).toList ++ 'Z' :: rest).length - ('Z' :: rest).length = places := by
    rw [List.length_append, length_padded hpos hn]
    omega
  rw [fraction, number_padded_apart (by decide) (by omega) hpos hplaces hn hmax]
  simp only [bind, Except.bind, hlen]
  rfl

theorem fraction_fractionText {n : Nat} (hn : n < Instant.nanosPerSec) (rest : List Char) :
    fraction ((fractionText n).toList ++ 'Z' :: rest) = .ok (n, 'Z' :: rest) := by
  have hnanos : Instant.nanosPerSec = 1000000000 := rfl
  have hread {places m : Nat} (hpos : 0 < places) (hplaces : places ≤ 9) (hm : m < Nat.pow 10 places)
      (hval : m * Nat.pow 10 (9 - places) = n) :
      fraction (("." ++ padded places m).toList ++ 'Z' :: rest) = .ok (n, 'Z' :: rest) := by
    rw [← hval, ← fraction_padded hpos hplaces hm]
    simp
  rw [fractionText]
  split
  · next hzero =>
    subst hzero
    rfl
  split
  · next hmilli => exact hread (by omega) (by omega) (show _ < 1000 by omega) (show _ * 1000000 = n by omega)
  split
  · next hmicro => exact hread (by omega) (by omega) (show _ < 1000000 by omega) (show _ * 1000 = n by omega)
  · exact hread (by omega) (by omega) (show _ < 1000000000 by omega) (show n * 1 = n by omega)

end Stamp

/-! ## What is written -/

/--
The instant is one that a clock shows: its day can be named, it has nanoseconds below two seconds, and a
leap second comes after the last second of a minute.
-/
structure Instant.Shown (t : Instant) : Prop where
  nanos : t.nanos < 2 * nanosPerSec
  leap : t.isLeap = true → t.secOfDay % 60 = 59
  range : t.InRange

instance : DecidablePred Instant.Shown := fun t =>
  decidable_of_iff (t.nanos < 2 * Instant.nanosPerSec ∧ (t.isLeap = true → t.secOfDay % 60 = 59) ∧ t.InRange)
    ⟨fun h => ⟨h.1, h.2.1, h.2.2⟩, fun h => ⟨h.nanos, h.leap, h.range⟩⟩

/--
The instant is one that a clock shows in a year of four digits: it has nanoseconds below two seconds,
and a leap second comes after the last second of a minute.
-/
structure Instant.Writable (t : Instant) : Prop where
  nanos : t.nanos < 2 * nanosPerSec
  leap : t.isLeap = true → t.secOfDay % 60 = 59
  year : 0 ≤ (Date.ofDays t.day).year ∧ (Date.ofDays t.day).year ≤ 9999

/-- The second of the minute; 60 within a leap second. -/
def Instant.second (t : Instant) : Nat := t.secOfDay.toNat % 60 + if t.isLeap then 1 else 0

theorem Instant.isLeap_truncate (t : Instant) : t.truncate.isLeap = t.isLeap := by
  cases hleap : t.isLeap <;> rw [truncate, hleap] <;> rfl

theorem Instant.truncate_truncate (t : Instant) : t.truncate.truncate = t.truncate := by
  rw [truncate, isLeap_truncate]
  rfl

namespace Date

/-- The years of four digits are far inside the range of instants. -/
theorem Valid.inRange {d : Date} (h : d.Valid) (hyear : 0 ≤ d.year ∧ d.year ≤ 9999) :
    minDays ≤ d.toDays ∧ d.toDays ≤ maxDays := by
  have hday := h.day
  have hmin : minDays = -96465292 := rfl
  have hmax : maxDays = 95026236 := rfl
  rw [toDays_eq rfl rfl, hmin, hmax]
  split <;> omega

/-- The days that can be named lie in years of at most six digits. -/
theorem Valid.year {d : Date} (h : d.Valid) (hrange : minDays ≤ d.toDays ∧ d.toDays ≤ maxDays) :
    -999999 ≤ d.year ∧ d.year ≤ 999999 := by
  have hmonth := h.month
  have hday := h.day
  have hmin : minDays = -96465292 := rfl
  have hmax : maxDays = 95026236 := rfl
  rw [toDays_eq rfl rfl, hmin, hmax] at hrange
  split at hrange <;> omega

end Date

theorem Instant.Writable.shown {t : Instant} (h : t.Writable) : t.Shown where
  nanos := h.nanos
  leap := h.leap
  range := by
    have hrange := (Date.valid_ofDays t.day).inRange h.year
    rwa [Date.toDays_ofDays] at hrange

theorem Instant.Shown.year {t : Instant} (h : t.Shown) :
    -999999 ≤ (Date.ofDays t.day).year ∧ (Date.ofDays t.day).year ≤ 999999 := by
  apply (Date.valid_ofDays t.day).year
  rw [Date.toDays_ofDays]
  exact h.range

namespace Stamp

open Text.Decimal

theorem toList_clockText (t : Instant) :
    (clockText t).toList = (padded 2 (t.secOfDay.toNat / 3600)).toList ++
      ':' :: ((padded 2 (t.secOfDay.toNat / 60 % 60)).toList ++ ':' :: (padded 2 t.second).toList) := by
  simp [clockText, Instant.second]

theorem toList_secondsText (t : Instant) :
    (secondsText t).toList = (yearText (Date.ofDays t.day).year).toList ++
      '-' :: ((padded 2 (Date.ofDays t.day).month).toList ++
      '-' :: ((padded 2 (Date.ofDays t.day).day).toList ++
      'T' :: ((clockText t).toList ++ ['Z']))) := by
  simp [secondsText, dateText]

theorem toList_text (t : Instant) :
    (text t).toList = (yearText (Date.ofDays t.day).year).toList ++
      '-' :: ((padded 2 (Date.ofDays t.day).month).toList ++
      '-' :: ((padded 2 (Date.ofDays t.day).day).toList ++
      'T' :: ((clockText t).toList ++ ((fractionText (t.nanos % Instant.nanosPerSec)).toList ++ ['Z'])))) := by
  simp [text, dateText]

theorem secOfDay_lt (t : Instant) : t.secOfDay.toNat < 86400 := by
  unfold Instant.secOfDay Instant.secsPerDay
  omega

/-! ## What is read -/

/-- A time of day is read as it was written, with the fraction that follows it. -/
theorem clock_clockText {num : List Char → Except Fault (Nat × List Char)}
    {colon : List Char → Except Fault (Unit × List Char)}
    (hnum : ∀ n < 100, ∀ rest, num ((padded 2 n).toList ++ rest) = .ok (n, rest))
    (hcolon : ∀ rest, colon (':' :: rest) = .ok ((), rest)) (t : Instant) {nanos : Nat}
    {rest rest' : List Char} (hfraction : fraction rest = .ok (nanos, rest')) :
    clock num colon ((clockText t).toList ++ rest) =
      .ok ((t.secOfDay.toNat / 3600, t.secOfDay.toNat / 60 % 60, t.second, nanos), rest') := by
  have hday := secOfDay_lt t
  have hleap : t.second ≤ 60 := by
    unfold Instant.second
    split <;> omega
  have hhour : within 0 23 (t.secOfDay.toNat / 3600) = .ok (t.secOfDay.toNat / 3600) := if_pos (by omega)
  have hminute : within 0 59 (t.secOfDay.toNat / 60 % 60) = .ok (t.secOfDay.toNat / 60 % 60) :=
    if_pos (by omega)
  have hsecond : within 0 60 t.second = .ok t.second := if_pos (by omega)
  rw [toList_clockText]
  simp only [List.append_assoc, List.cons_append]
  rw [clock, hnum _ (by omega)]
  simp only [bind, Except.bind, hhour, hcolon]
  rw [hnum _ (by omega)]
  simp only [hminute, hcolon]
  rw [hnum _ (by omega)]
  simp only [hsecond, hfraction]
  rfl

/-- The fields of an instant name it. -/
theorem instant?_fields {t : Instant} (h : t.Shown) :
    Fields.instant? ⟨Date.ofDays t.day, t.secOfDay.toNat / 3600, t.secOfDay.toNat / 60 % 60, t.second,
      t.nanos % Instant.nanosPerSec, 0⟩ = .ok t := by
  have hrange : Date.minDays ≤ t.day ∧ t.day ≤ Date.maxDays := h.range
  have hvalid := Date.valid_ofDays t.day
  have hsecs : t.day * Instant.secsPerDay +
      (t.secOfDay.toNat / 3600 * 3600 + t.secOfDay.toNat / 60 % 60 * 60 + t.secOfDay.toNat % 60 : Nat) - 0
      = t.secs := by
    unfold Instant.day Instant.secOfDay Instant.secsPerDay
    omega
  -- second 60 stands for the leap second after second 59
  have hparts : min t.second 59 = t.secOfDay.toNat % 60 ∧
      t.nanos % Instant.nanosPerSec + (if t.second = 60 then Instant.nanosPerSec else 0) = t.nanos := by
    have hnanos := h.nanos
    cases hleap : t.isLeap with
    | false =>
        have hbelow : t.nanos < Instant.nanosPerSec := by simpa [Instant.isLeap] using hleap
        have hsecond : t.second = t.secOfDay.toNat % 60 := by simp [Instant.second, hleap]
        rw [hsecond, if_neg (by omega), Nat.mod_eq_of_lt hbelow]
        omega
    | true =>
        have habove : Instant.nanosPerSec ≤ t.nanos := by simpa [Instant.isLeap] using hleap
        have hminute : t.secOfDay.toNat % 60 = 59 := by
          have hlast := h.leap hleap
          have hnonneg : 0 ≤ t.secOfDay := Int.emod_nonneg _ (by decide)
          omega
        have hsecond : t.second = 60 := by simp [Instant.second, hleap, hminute]
        rw [hsecond, hminute, if_pos rfl, Nat.mod_eq_sub_mod habove, Nat.mod_eq_of_lt (by omega)]
        omega
  simp only [Fields.instant?, Date.toDays_ofDays, hparts, hsecs, hvalid]
  rw [if_neg (by simp only [not_true_eq_false, false_or]; omega), if_neg (by omega), if_pos h.range]
  rfl

/-- Without the fraction the fields name the instant without it. -/
theorem instant?_truncate {t : Instant} (h : t.Writable) :
    Fields.instant? ⟨Date.ofDays t.day, t.secOfDay.toNat / 3600, t.secOfDay.toNat / 60 % 60, t.second, 0, 0⟩ =
      .ok t.truncate := by
  have hleap := t.isLeap_truncate
  have hnanos : t.truncate.nanos < 2 * Instant.nanosPerSec ∧ t.truncate.nanos % Instant.nanosPerSec = 0 := by
    rw [Instant.truncate]
    dsimp only
    split <;> decide
  have hwritable : t.truncate.Writable := ⟨hnanos.1, fun hl => h.leap (hleap ▸ hl), h.year⟩
  have hsecond : t.truncate.second = t.second := by
    rw [Instant.second, Instant.second, hleap]
    rfl
  have hfields := instant?_fields hwritable.shown
  rw [hnanos.2, hsecond] at hfields
  exact hfields

theorem number_yearText {y : Int} (hy : 0 ≤ y ∧ y ≤ 9999) {least : Nat} (hl : least ≤ 4) (rest : List Char) :
    number least (some 4) ((yearText y).toList ++ rest) = .ok (y.toNat, rest) := by
  have hfour : y.toNat < 10000 := by omega
  rw [yearText, if_pos hy]
  exact number_padded hl (by omega) hfour (by unfold maxNumber; omega)

/-- A timestamp in seconds is one to the letter of the grammar. -/
theorem strict_secondsText {t : Instant} (h : t.Writable) : strict (secondsText t).toList = .ok t.truncate := by
  have hvalid := Date.valid_ofDays t.day
  have hmonth := hvalid.month
  have hday := hvalid.day
  have hm : within 1 12 (Date.ofDays t.day).month = .ok (Date.ofDays t.day).month := if_pos (by omega)
  have hd : within 1 31 (Date.ofDays t.day).day = .ok (Date.ofDays t.day).day := if_pos (by omega)
  have hcast : ((Date.ofDays t.day).year.toNat : Int) = (Date.ofDays t.day).year := by
    have := h.year
    omega
  have hfraction : fraction ['Z'] = .ok (0, ['Z']) := rfl
  have hclock : clock (number 2 (some 2)) (literal ':') ((clockText t).toList ++ ['Z']) = _ :=
    clock_clockText (fun _ hn rest => number_padded_two hn rest) (fun _ => rfl) t hfraction
  -- part by part, in the order in which the parts are read
  rw [toList_secondsText, strict, number_yearText h.year (by omega)]
  simp only [bind, Except.bind, literal, if_true]
  rw [number_padded_two (by omega)]
  simp only [hm, if_true]
  rw [number_padded_two (by omega)]
  simp only [hd, separator, true_or, if_true]
  rw [hclock]
  show (if (0 : Int) < -maxOffset ∨ maxOffset < 0 then _ else _) = _
  rw [if_neg (by decide), if_neg (by simp), hcast]
  exact instant?_truncate h

/-- A year is read up to its end, with or without a sign. -/
theorem year_yearText {y : Int} (hmax : y.natAbs ≤ maxNumber) (rest : List Char) :
    year ((yearText y).toList ++ '-' :: rest) = .ok (y, '-' :: rest) := by
  by_cases hy : 0 ≤ y ∧ y ≤ 9999
  · have hnumber : number 1 (some 4) ((yearText y).toList ++ '-' :: rest) = .ok (y.toNat, '-' :: rest) :=
      number_yearText hy (by omega) _
    have hcast : ((y.toNat : Nat) : Int) = y := by omega
    have hstart : Text.trimStart ((yearText y).toList ++ '-' :: rest) = (yearText y).toList ++ '-' :: rest := by
      rw [yearText, if_pos hy]
      exact trimStart_padded (by omega) _ _
    have hdigit : ∃ c r, (yearText y).toList ++ '-' :: rest = c :: r ∧ c.isDigit = true := by
      have hlen := le_length_padded 4 y.toNat
      rw [yearText, if_pos hy]
      cases hcs : (padded 4 y.toNat).toList with
      | nil => simp [hcs] at hlen
      | cons c r => exact ⟨c, _, rfl, isDigit_of_mem_padded (hcs ▸ List.mem_cons_self : c ∈ _)⟩
    obtain ⟨c, r, hcs, hc⟩ := hdigit
    rw [year, hstart]
    split
    · next heq =>
      rw [heq] at hcs
      cases hcs
      exact absurd hc (by decide)
    · next heq =>
      rw [heq] at hcs
      cases hcs
      exact absurd hc (by decide)
    · rw [hnumber]
      simp only [bind, Except.bind, hcast]
      rfl
  · have hnumber : number 1 none ((padded 4 y.natAbs).toList ++ '-' :: rest) = .ok (y.natAbs, '-' :: rest) :=
      number_padded_free (by decide) (by omega) hmax rest
    have hstart {c : Char} (hc : Text.isBlank c = false) (r : List Char) : Text.trimStart (c :: r) = c :: r := by
      simp [Text.trimStart, hc]
    rw [yearText, if_neg hy]
    split
    · next hneg =>
      have hcast : -((y.natAbs : Nat) : Int) = y := by omega
      have htext : ("-" ++ padded 4 y.natAbs).toList ++ '-' :: rest =
          '-' :: ((padded 4 y.natAbs).toList ++ '-' :: rest) := by simp
      rw [htext, year, hstart (by decide)]
      simp only [bind, Except.bind, hnumber, hcast]
      rfl
    · next hpos =>
      have hcast : ((y.natAbs : Nat) : Int) = y := by omega
      have htext : ("+" ++ padded 4 y.natAbs).toList ++ '-' :: rest =
          '+' :: ((padded 4 y.natAbs).toList ++ '-' :: rest) := by simp
      rw [htext, year, hstart (by decide)]
      simp only [bind, Except.bind, hnumber, hcast]
      rfl

/-- An instant that is written in full comes back as it was. -/
theorem lenient_text {t : Instant} (h : t.Shown) : lenient (text t).toList = .ok t := by
  have hvalid := Date.valid_ofDays t.day
  have hmonth := hvalid.month
  have hday := hvalid.day
  have hyear := h.year
  have hy : yearWithin (Date.ofDays t.day).year = .ok (Date.ofDays t.day).year := if_pos (by omega)
  have hm : within 1 12 (Date.ofDays t.day).month = .ok (Date.ofDays t.day).month := if_pos (by omega)
  have hd : within 1 31 (Date.ofDays t.day).day = .ok (Date.ofDays t.day).day := if_pos (by omega)
  have hdash (rest : List Char) : spaced '-' ('-' :: rest) = .ok ((), rest) := rfl
  have hfraction : fraction ((fractionText (t.nanos % Instant.nanosPerSec)).toList ++ ['Z']) = _ :=
    fraction_fractionText (Nat.mod_lt _ (by decide)) []
  have hclock := clock_clockText (fun _ hn rest => short_padded hn rest) spaced_colon t hfraction
  have hdate (rest : List Char) : dateParts (spaced '-') ((yearText (Date.ofDays t.day).year).toList ++
      '-' :: ((padded 2 (Date.ofDays t.day).month).toList ++
      '-' :: ((padded 2 (Date.ofDays t.day).day).toList ++ rest))) = .ok (Date.ofDays t.day, rest) := by
    rw [dateParts, year_yearText (by unfold maxNumber; omega)]
    simp only [bind, Except.bind, hy, hdash]
    rw [short_padded (by omega)]
    simp only [hm, hdash]
    rw [short_padded (by omega)]
    simp only [hd]
    rfl
  rw [toList_text, lenient, hdate]
  simp only [bind, Except.bind, separator, true_or, if_true, hclock]
  exact instant?_fields h

end Stamp

end Harvesting
