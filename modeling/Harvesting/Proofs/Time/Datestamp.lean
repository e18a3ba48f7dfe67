import Harvesting.Proofs.Time.Stamp
import Harvesting.Time.Datestamp

/-!
# Datestamps are read as they were written

A bound of a window goes through the store as a text. This file says what comes back.

* `Instant.Whole` — no fraction of a second; `Instant.Datable` — moreover in a year of four digits;
  `Instant.Dated` — the same for leap seconds as well;
* `Datestamp.parse_writable` — in a year of four digits, an instant comes back without its fraction;
* `Datestamp.parse_dated`, `Datestamp.parse_format` — a whole second comes back as it was;
* `Datestamp.eq_of_parse_format` — any other whole instant is refused: a text that is read at all is
  read as the instant that wrote it;
* `Instant.written`, `Datestamp.written_of_parse_format` — what is left of an instant that is not whole.
-/

namespace Harvesting

/-- The instant has no fraction of a second and is not within a leap second. -/
def Instant.Whole (t : Instant) : Prop := t.nanos = 0

theorem Instant.Whole.isLeap {t : Instant} (h : t.Whole) : t.isLeap = false := by
  rw [Instant.isLeap, h]
  rfl

/-- The instant can be written with a year of four digits and has no fraction; it may be a leap second. -/
structure Instant.Dated (t : Instant) : Prop extends t.Writable where
  whole : t.nanos % nanosPerSec = 0

theorem Instant.Dated.truncate {t : Instant} (h : t.Dated) : t.truncate = t := by
  have hnanos : (if t.isLeap then nanosPerSec else 0) = t.nanos := by
    have hbound := h.nanos
    have hwhole := h.whole
    have hdiv := Nat.div_add_mod t.nanos nanosPerSec
    have hpos : 0 < nanosPerSec := by decide
    split
    · next hleap =>
      have hle : nanosPerSec ≤ t.nanos := by simpa [isLeap] using hleap
      rw [Nat.mod_eq_sub_mod hle, Nat.mod_eq_of_lt (by omega)] at hwhole
      omega
    · next hleap =>
      have hlt : t.nanos < nanosPerSec := by simpa [isLeap] using hleap
      rw [Nat.mod_eq_of_lt hlt] at hwhole
      exact hwhole.symm
  exact congrArg (Instant.mk t.secs) hnanos

/-- The instant can be written with a year of four digits and without a fraction. -/
structure Instant.Datable (t : Instant) : Prop where
  whole : t.Whole
  year : 0 ≤ (Date.ofDays t.day).year ∧ (Date.ofDays t.day).year ≤ 9999

theorem Instant.Datable.dated {t : Instant} (h : t.Datable) : t.Dated where
  nanos := by
    rw [h.whole]
    decide
  leap hleap := by
    rw [h.whole.isLeap] at hleap
    cases hleap
  year := h.year
  whole := by
    rw [h.whole]
    rfl

/-! ## Years with a sign -/

namespace Stamp

open Text.Decimal

theorem toList_yearText {y : Int} (h : ¬(0 ≤ y ∧ y ≤ 9999)) :
    ∃ c, (c = '-' ∨ c = '+') ∧ (yearText y).toList = c :: (padded 4 y.natAbs).toList := by
  rw [yearText, if_neg h]
  split
  · exact ⟨'-', .inl rfl, by simp⟩
  · exact ⟨'+', .inr rfl, by simp⟩

theorem strict_sign {c : Char} (hc : c.isDigit = false) (r : List Char) (t : Instant) :
    strict (c :: r) ≠ .ok t := by
  intro h
  obtain ⟨_, hyear, -⟩ := bind_eq_ok.1 h
  simp only [number, List.take_succ_cons, List.takeWhile_cons, hc] at hyear
  split at hyear <;> simp at hyear

theorem rest_of_year {c : Char} (hc : c = '-' ∨ c = '+') {n : Nat} {rest : List Char}
    {a : Int × List Char} (h : year (c :: ((padded 4 n).toList ++ '-' :: rest)) = .ok a) :
    a.2 = '-' :: rest := by
  have hblank : Text.isBlank c = false := by rcases hc with rfl | rfl <;> decide
  have hstart : Text.trimStart (c :: ((padded 4 n).toList ++ '-' :: rest))
      = c :: ((padded 4 n).toList ++ '-' :: rest) := by
    simp [Text.trimStart, hblank]
  rw [year, hstart] at h
  rcases hc with rfl | rfl
  · obtain ⟨⟨m, r⟩, hnumber, hr⟩ := bind_eq_ok.1 h
    cases number_padded_none (by decide) hnumber
    cases hr
    rfl
  · obtain ⟨⟨m, r⟩, hnumber, hr⟩ := bind_eq_ok.1 h
    cases number_padded_none (by decide) hnumber
    cases hr
    rfl

/-- A date that is followed by more is not a date alone. -/
theorem calendarDay_sign {c : Char} (hc : c = '-' ∨ c = '+') {n month day : Nat}
    (hmonth : month < 100) (hday : day < 100) (x : Char) (rest : List Char) (d : Date) :
    calendarDay (c :: ((padded 4 n).toList ++ '-' :: ((padded 2 month).toList ++
      '-' :: ((padded 2 day).toList ++ x :: rest)))) ≠ .ok d := by
  intro h
  -- whatever the parts are, `x :: rest` is left, and that is no end
  obtain ⟨⟨date, r⟩, hdate, hend⟩ := bind_eq_ok.1 h
  obtain ⟨⟨y, r1⟩, hyear, hdate⟩ := bind_eq_ok.1 hdate
  obtain rfl : r1 = _ := rest_of_year hc hyear
  obtain ⟨y', -, hdate⟩ := bind_eq_ok.1 hdate
  obtain ⟨⟨⟨⟩, r2⟩, hdash, hdate⟩ := bind_eq_ok.1 hdate
  cases hdash
  obtain ⟨⟨m, r3⟩, hm, hdate⟩ := bind_eq_ok.1 hdate
  rw [short_padded hmonth] at hm
  cases hm
  obtain ⟨m', -, hdate⟩ := bind_eq_ok.1 hdate
  obtain ⟨⟨⟨⟩, r4⟩, hdash, hdate⟩ := bind_eq_ok.1 hdate
  cases hdash
  obtain ⟨⟨k, r5⟩, hk, hdate⟩ := bind_eq_ok.1 hdate
  rw [short_padded hday] at hk
  cases hk
  obtain ⟨k', -, hdate⟩ := bind_eq_ok.1 hdate
  cases hdate
  cases hend

end Stamp

/-! ## What is read -/

namespace Datestamp

open Text.Decimal

theorem head_yearText (y : Int) : ∃ c r, (Stamp.yearText y).toList = c :: r ∧ Text.isBlank c = false := by
  by_cases h : 0 ≤ y ∧ y ≤ 9999
  · have hlen := le_length_padded 4 y.toNat
    rw [Stamp.yearText, if_pos h]
    cases hcs : (padded 4 y.toNat).toList with
    | nil => simp [hcs] at hlen
    | cons c r =>
        exact ⟨c, r, rfl, Text.isBlank_of_isDigit (isDigit_of_mem_padded (hcs ▸ List.mem_cons_self : c ∈ _))⟩
  · obtain ⟨c, hc, hcs⟩ := Stamp.toList_yearText h
    exact ⟨c, _, hcs, by rcases hc with rfl | rfl <;> decide⟩

theorem trim_format (t : Instant) : Text.trim (format t).toList = (format t).toList := by
  obtain ⟨c, r, hcs, hc⟩ := head_yearText (Date.ofDays t.day).year
  apply Text.trim_eq_self
  · simp [format, Stamp.toList_secondsText, hcs, hc]
  · have hlast : (format t).toList.getLast? = some 'Z' := by
      simp [format, Stamp.toList_secondsText, List.getLast?_append, List.getLast?_cons]
    rw [hlast]
    intro c hc
    cases hc
    decide

/-- An instant comes back without its fraction. -/
theorem parse_writable {t : Instant} (h : t.Writable) : parse (format t) = .ok t.truncate := by
  rw [parse, trim_format]
  simp only [format, Stamp.strict_secondsText h, Instant.truncate_truncate]

/-- A whole second comes back as it was. -/
theorem parse_dated {t : Instant} (h : t.Dated) : parse (format t) = .ok t := by
  rw [parse_writable h.toWritable, h.truncate]

/-- A datable instant comes back as it was. -/
theorem parse_format {t : Instant} (h : t.Datable) : parse (format t) = .ok t := parse_dated h.dated

/-- A text that is read at all has a year of four digits. -/
theorem year_of_parse_format {t t' : Instant} (hparse : parse (format t) = .ok t') :
    0 ≤ (Date.ofDays t.day).year ∧ (Date.ofDays t.day).year ≤ 9999 := by
  apply Decidable.byContradiction
  intro hyear
  -- a year with a sign is neither in the grammar of timestamps nor the start of a date alone
  have hvalid := Date.valid_ofDays t.day
  have hmonth := hvalid.month
  have hday := hvalid.day
  obtain ⟨c, hc, hcs⟩ := Stamp.toList_yearText hyear
  have hdigit : c.isDigit = false := by rcases hc with rfl | rfl <;> decide
  rw [parse, trim_format] at hparse
  simp only [format, Stamp.toList_secondsText, hcs, List.cons_append] at hparse
  split at hparse
  · next hstrict => exact Stamp.strict_sign hdigit _ _ hstrict
  · split at hparse
    · next d hdate => exact Stamp.calendarDay_sign hc (by omega) (by omega) _ _ _ hdate
    · cases hparse

/-- A text that is read at all is read as the instant that wrote it. -/
theorem eq_of_parse_format {t t' : Instant} (h : t.Whole) (hparse : parse (format t) = .ok t') :
    t' = t := by
  rw [parse_format ⟨h, year_of_parse_format hparse⟩] at hparse
  cases hparse
  rfl

end Datestamp

/-! ## What is left of an instant -/

namespace Instant

variable {t : Instant}

/-- What is left of an instant when it is written: no fraction, and a leap second only where one can be. -/
def written (t : Instant) : Instant :=
  if t.isLeap ∧ t.secs % 60 ≠ 59 then ⟨t.secs + 1, 0⟩ else t.truncate

theorem Whole.written (h : t.Whole) : t.written = t := by
  obtain ⟨secs, nanos⟩ := t
  rw [Whole] at h
  subst h
  rfl

/-- What is left is a second, or a leap second. -/
theorem nanos_written (t : Instant) : t.written.nanos = 0 ∨ t.written.nanos = nanosPerSec := by
  rw [written, truncate]
  split
  · exact .inl rfl
  · cases t.isLeap
    · exact .inl rfl
    · exact .inr rfl

theorem secOfDay_emod (t : Instant) : t.secOfDay % 60 = t.secs % 60 := by
  unfold secOfDay secsPerDay
  omega

theorem written_written (t : Instant) : t.written.written = t.written := by
  by_cases h : t.isLeap ∧ t.secs % 60 ≠ 59
  · have hmoved : t.written = ⟨t.secs + 1, 0⟩ := if_pos h
    rw [hmoved]
    rfl
  · have hkept : t.written = t.truncate := if_neg h
    have htruncate : ¬ (t.truncate.isLeap = true ∧ t.truncate.secs % 60 ≠ 59) := by
      rw [isLeap_truncate]
      exact h
    rw [hkept, written, if_neg htruncate, truncate_truncate]

/-- A leap second that is moved on stays within its minute. -/
theorem day_written (t : Instant) : t.written.day = t.day := by
  rw [written]
  split
  · next h =>
    show (t.secs + 1) / 86400 = t.secs / 86400
    omega
  · rfl

theorem dated_written (hyear : 0 ≤ (Date.ofDays t.day).year ∧ (Date.ofDays t.day).year ≤ 9999) :
    t.written.Dated where
  nanos := by
    rcases t.nanos_written with h | h <;> rw [h] <;> decide
  leap := by
    rw [secOfDay_emod, written]
    split
    · intro hleap
      cases hleap
    · next h =>
      rw [isLeap_truncate]
      intro hleap
      show t.secs % 60 = 59
      exact Decidable.byContradiction fun hlast => h ⟨hleap, hlast⟩
  year := by rwa [day_written]
  whole := by
    rcases t.nanos_written with h | h <;> rw [h] <;> rfl

end Instant

namespace Datestamp

/-- The text tells of nothing else. -/
theorem format_written (t : Instant) : format t.written = format t := by
  by_cases h : t.isLeap ∧ t.secs % 60 ≠ 59
  · -- the text has second 60 only in the last second of a minute, otherwise the one that follows
    have hday : (⟨t.secs + 1, 0⟩ : Instant).day = t.day := by
      have hwritten := t.day_written
      rwa [Instant.written, if_pos h] at hwritten
    have hsecond : (⟨t.secs + 1, 0⟩ : Instant).secOfDay.toNat = t.secOfDay.toNat + 1 := by
      have hlast := h.2
      show ((t.secs + 1) % 86400).toNat = (t.secs % 86400).toNat + 1
      omega
    have hminute : t.secOfDay.toNat % 60 ≠ 59 := by
      have hlast := h.2
      show (t.secs % 86400).toNat % 60 ≠ 59
      omega
    have hclock : Stamp.clockText ⟨t.secs + 1, 0⟩ = Stamp.clockText t := by
      have hhours : (t.secOfDay.toNat + 1) / 3600 = t.secOfDay.toNat / 3600 := by omega
      have hminutes : (t.secOfDay.toNat + 1) / 60 = t.secOfDay.toNat / 60 := by omega
      have hseconds : (t.secOfDay.toNat + 1) % 60 = t.secOfDay.toNat % 60 + 1 := by omega
      rw [Stamp.clockText, Stamp.clockText, hsecond, hhours, hminutes, hseconds, h.1]
      rfl
    rw [Instant.written, if_pos h, format, format, Stamp.secondsText, Stamp.secondsText, hday, hclock]
  · have hclock : Stamp.clockText t.truncate = Stamp.clockText t := by
      rw [Stamp.clockText, Stamp.clockText, Instant.isLeap_truncate]
      rfl
    rw [Instant.written, if_neg h, format, format, Stamp.secondsText, Stamp.secondsText, hclock]
    rfl

/-- A text that is read at all is read as what was left of the instant. -/
theorem written_of_parse_format {t t' : Instant} (hparse : parse (format t) = .ok t') : t' = t.written := by
  have hwritten := parse_dated (Instant.dated_written (year_of_parse_format hparse))
  rw [format_written, hparse] at hwritten
  cases hwritten
  rfl

end Datestamp

end Harvesting
