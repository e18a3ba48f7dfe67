import Harvesting.Time.Calendar

/-!
# Days and dates

Naming a day and counting it again are inverse to each other, every day has a date that the calendar knows, and
days are counted in the order of their dates.

* `Date.EraDay` — a day of an era as century, leap cycle, year of the cycle and day of the year;
* `Date.yearOfEra_eq` — the closed formula for the year finds the parts again;
* `Date.toDays_ofDays`, `Date.valid_ofDays` — every day has a date;
* `Date.Before`, `Date.toDays_lt`, `Date.ofDays_toDays` — every date has a day, in order.
-/

namespace Harvesting.Date

/-! ## A day within its era -/

/--
A day of an era in parts: `c` centuries, `q` cycles of four years, `r` years and `d` days. Only the
last year of a cycle has 366 days, and of those that end a century only the last one of the era.
-/
structure EraDay (dayOfEra c q r d : Int) : Prop where
  century : 0 ≤ c ∧ c ≤ 3
  cycle : 0 ≤ q ∧ q ≤ 24
  year : 0 ≤ r ∧ r ≤ 3
  day : 0 ≤ d ∧ d ≤ 365
  leap : d = 365 → r = 3 ∧ (q = 24 → c = 3)
  sum : dayOfEra = 36524 * c + 1461 * q + 365 * r + d

theorem exists_eraDay {dayOfEra : Int} (h0 : 0 ≤ dayOfEra) (h1 : dayOfEra ≤ 146096) :
    ∃ c q r d, EraDay dayOfEra c q r d := by
  -- the last day of an era and the last day of a cycle are the ones that division gets wrong
  have hc : ∃ c s, 0 ≤ c ∧ c ≤ 3 ∧ 0 ≤ s ∧ s ≤ 36524 ∧ (s = 36524 → c = 3) ∧
      dayOfEra = 36524 * c + s := by
    by_cases hlast : dayOfEra = 146096
    · exact ⟨3, 36524, by omega⟩
    · exact ⟨dayOfEra / 36524, dayOfEra % 36524, by omega⟩
  obtain ⟨c, s, hc0, hc3, hs0, hs, hsc, hsum⟩ := hc
  have hr : ∃ r d, 0 ≤ r ∧ r ≤ 3 ∧ 0 ≤ d ∧ d ≤ 365 ∧ (d = 365 → r = 3) ∧
      s % 1461 = 365 * r + d := by
    by_cases hlast : s % 1461 = 1460
    · exact ⟨3, 365, by omega⟩
    · exact ⟨s % 1461 / 365, s % 1461 % 365, by omega⟩
  obtain ⟨r, d, hr0, hr3, hd0, hd, hdr, hrest⟩ := hr
  refine ⟨c, s / 1461, r, d, ⟨hc0, hc3⟩, by omega, ⟨hr0, hr3⟩, ⟨hd0, hd⟩, ?_, by omega⟩
  intro hleap
  have hr := hdr hleap
  refine ⟨hr, ?_⟩
  intro hq
  apply hsc
  omega

/-- The correction terms of the formula make up for exactly the leap days before the day. -/
theorem yearOfEra_eq {dayOfEra c q r d : Int} (h : EraDay dayOfEra c q r d) :
    (dayOfEra - dayOfEra / 1460 + dayOfEra / 36524 - dayOfEra / 146096) / 365
      = 100 * c + 4 * q + r := by
  obtain ⟨⟨hc0, hc3⟩, ⟨hq0, hq⟩, ⟨hr0, hr3⟩, ⟨hd0, hd⟩, hleap, hsum⟩ := h
  have hcentury : dayOfEra / 36524 - dayOfEra / 146096 = c := by
    have hrest : 1461 * q + 365 * r + d < 36524 ∨ 1461 * q + 365 * r + d = 36524 ∧ c = 3 := by omega
    rcases hrest with hrest | ⟨hrest, rfl⟩
    · have h1 : dayOfEra / 36524 = c := by omega
      have h2 : dayOfEra / 146096 = 0 := by omega
      omega
    · omega
  -- a cycle has one day more than 4 * 365, so `1460` overtakes it once, on its last day at the latest
  have hcycle : ∃ e, dayOfEra / 1460 = 25 * c + q + e ∧ 0 ≤ d - e ∧ d - e ≤ 364 := by
    by_cases hlate : 1460 ≤ 24 * c + q + 365 * r + d
    · exact ⟨1, by omega⟩
    · exact ⟨0, by omega⟩
  obtain ⟨e, hcycle, hlow, hhigh⟩ := hcycle
  omega

theorem dayOfYear_eq {dayOfEra c q r d : Int} (h : EraDay dayOfEra c q r d) :
    dayOfEra - (365 * (100 * c + 4 * q + r) + (100 * c + 4 * q + r) / 4 - (100 * c + 4 * q + r) / 100)
      = d := by
  obtain ⟨⟨hc0, hc3⟩, ⟨hq0, hq⟩, ⟨hr0, hr3⟩, ⟨hd0, hd⟩, hleap, hsum⟩ := h
  have hfourth : (100 * c + 4 * q + r) / 4 = 25 * c + q := by omega
  have hhundredth : (100 * c + 4 * q + r) / 100 = c := by omega
  omega

/-! ## The date of a day -/

/-- The month of a number that counts from March. -/
def monthOf (shifted : Int) : Nat := (if shifted < 10 then shifted + 3 else shifted - 9).toNat

/-- The year of a month when years start in January. -/
def yearOf (year : Int) (month : Nat) : Int := if month ≤ 2 then year + 1 else year

/-- Every day number has its parts, and its date is put together from them. -/
theorem ofDays_parts (days : Int) :
    ∃ era c q r d shifted, EraDay (days + 719468 - era * 146097) c q r d ∧ (5 * d + 2) / 153 = shifted ∧
      ofDays days = ⟨yearOf (100 * c + 4 * q + r + era * 400) (monthOf shifted), monthOf shifted,
        (d - (153 * shifted + 2) / 5 + 1).toNat⟩ := by
  have hlow : 0 ≤ days + 719468 - (days + 719468) / 146097 * 146097 := by omega
  obtain ⟨c, q, r, d, h⟩ := exists_eraDay hlow (by omega)
  refine ⟨(days + 719468) / 146097, c, q, r, d, (5 * d + 2) / 153, h, rfl, ?_⟩
  have hmonth (m : Int) : m.toNat ≤ 2 ↔ m ≤ 2 := by omega
  simp only [ofDays, yearOfEra_eq h, dayOfYear_eq h, yearOf, monthOf, hmonth]

/-- The days up to a date of the year `y` that starts in March. -/
theorem toDays_eq {date : Date} {y shifted : Int}
    (hy : (if date.month ≤ 2 then date.year - 1 else date.year) = y)
    (hs : ((date.month : Int) + 9) % 12 = shifted) :
    date.toDays = y / 400 * 146097 + ((y - y / 400 * 400) * 365 + (y - y / 400 * 400) / 4
      - (y - y / 400 * 400) / 100 + ((153 * shifted + 2) / 5 + date.day - 1)) - 719468 := by
  subst hy hs
  rfl

theorem toDays_ofDays (days : Int) : (ofDays days).toDays = days := by
  obtain ⟨era, c, q, r, d, shifted, h, hshifted, hdate⟩ := ofDays_parts days
  obtain ⟨⟨hc0, hc3⟩, ⟨hq0, hq⟩, ⟨hr0, hr3⟩, ⟨hd0, hd⟩, hleap, hsum⟩ := h
  have hmonth : ((monthOf shifted : Int) + 9) % 12 = shifted := by
    unfold monthOf
    split <;> omega
  have hyear : (if monthOf shifted ≤ 2
      then yearOf (100 * c + 4 * q + r + era * 400) (monthOf shifted) - 1
      else yearOf (100 * c + 4 * q + r + era * 400) (monthOf shifted))
      = 100 * c + 4 * q + r + era * 400 := by
    by_cases hjan : monthOf shifted ≤ 2 <;> simp [yearOf, hjan]
  have hera : (100 * c + 4 * q + r + era * 400) / 400 = era := by omega
  have hfourth : (100 * c + 4 * q + r) / 4 = 25 * c + q := by omega
  have hhundredth : (100 * c + 4 * q + r) / 100 = c := by omega
  rw [hdate, toDays_eq hyear hmonth]
  simp only [hera, Int.add_sub_cancel, hfourth, hhundredth]
  omega

/-- The months from March to January have the days up to the first day of the next one. -/
theorem daysInMonth_monthOf (year : Int) {shifted : Int} (h0 : 0 ≤ shifted) (h : shifted ≤ 10) :
    (daysInMonth year (monthOf shifted) : Int) = (153 * shifted + 155) / 5 - (153 * shifted + 2) / 5 := by
  have hcases : shifted = 0 ∨ shifted = 1 ∨ shifted = 2 ∨ shifted = 3 ∨ shifted = 4 ∨ shifted = 5 ∨
      shifted = 6 ∨ shifted = 7 ∨ shifted = 8 ∨ shifted = 9 ∨ shifted = 10 := by omega
  rcases hcases with rfl | rfl | rfl | rfl | rfl | rfl | rfl | rfl | rfl | rfl | rfl <;> rfl

/-- February is the last month; it has its 29th day when the year that it ends is a long one. -/
theorem valid_ofDays (days : Int) : (ofDays days).Valid := by
  obtain ⟨era, c, q, r, d, shifted, h, hshifted, hdate⟩ := ofDays_parts days
  obtain ⟨⟨hc0, hc3⟩, ⟨hq0, hq⟩, ⟨hr0, hr3⟩, ⟨hd0, hd⟩, hleap, hsum⟩ := h
  rw [hdate]
  refine ⟨by simp only; omega, ?_⟩
  by_cases hfeb : shifted = 11
  · subst hfeb
    show (d - (153 * 11 + 2) / 5 + 1).toNat ≤ if isLeap (100 * c + 4 * q + r + era * 400 + 1) then 29 else 28
    have hlong : d = 365 → isLeap (100 * c + 4 * q + r + era * 400 + 1) = true := by
      -- day 365 ends a cycle, and the last cycle of a century only where the era ends as well
      intro hlast
      obtain ⟨rfl, hcentury⟩ := hleap hlast
      simp only [isLeap, Bool.and_eq_true, Bool.or_eq_true, decide_eq_true_eq]
      omega
    split
    · omega
    · next hshort =>
      have hlast : d ≠ 365 := by
        intro hlast
        exact hshort (hlong hlast)
      omega
  · have h0 : 0 ≤ shifted := by omega
    have hmonth := daysInMonth_monthOf (yearOf (100 * c + 4 * q + r + era * 400) (monthOf shifted)) h0
      (by omega)
    simp only
    omega

/-! ## Dates in order -/

theorem Valid.month {d : Date} (h : d.Valid) : 1 ≤ d.month ∧ d.month ≤ 12 := by
  obtain ⟨hday, hlast⟩ := h
  unfold daysInMonth at hlast
  split at hlast <;> omega

theorem Valid.day {d : Date} (h : d.Valid) : 1 ≤ d.day ∧ d.day ≤ 31 := by
  obtain ⟨hday, hlast⟩ := h
  have : daysInMonth d.year d.month ≤ 31 := by
    unfold daysInMonth
    split <;> try omega
    split <;> omega
  omega

/-- The days before a year that starts in March. -/
def yearStart (y : Int) : Int :=
  y / 400 * 146097 + (y % 400 * 365 + y % 400 / 4 - y % 400 / 100) - 719468

/-- A year that starts in March has the leap day of the year in which it ends. -/
theorem yearStart_pred (y : Int) : yearStart (y - 1) + (if isLeap y then 366 else 365) = yearStart y := by
  have hleap : isLeap y = true ↔ y % 4 = 0 ∧ (y % 100 ≠ 0 ∨ y % 400 = 0) := by simp [isLeap]
  unfold yearStart
  split
  · next h =>
    rw [hleap] at h
    omega
  · next h =>
    rw [hleap] at h
    omega

theorem yearStart_mono {y y' : Int} (h : y ≤ y') : yearStart y ≤ yearStart y' := by
  unfold yearStart
  omega

/-- January and February belong to the year before. -/
theorem toDays_early {d : Date} (hd : d.Valid) (h : d.month ≤ 2) :
    d.toDays = yearStart (d.year - 1) + (31 * d.month + 274 + d.day) := by
  have hmonth := hd.month
  rw [toDays_eq (if_pos h) rfl, yearStart]
  omega

theorem toDays_late {d : Date} (hd : d.Valid) (h : ¬ d.month ≤ 2) :
    d.toDays = yearStart d.year + ((153 * (d.month - 3) + 2) / 5 + (d.day - 1)) := by
  have hmonth := hd.month
  rw [toDays_eq (if_neg h) rfl, yearStart]
  omega

/-- A month has no more days than there are up to the next one. -/
theorem Valid.day_late {d : Date} (hd : d.Valid) (h : ¬ d.month ≤ 2) :
    d.month < 12 → (d.day : Int) ≤ (153 * (d.month - 2) + 2) / 5 - (153 * (d.month - 3) + 2) / 5 := by
  obtain ⟨y, m, day⟩ := d
  have hmonth := hd.month
  obtain ⟨-, hlast⟩ := hd
  have hcases : m = 3 ∨ m = 4 ∨ m = 5 ∨ m = 6 ∨ m = 7 ∨ m = 8 ∨ m = 9 ∨ m = 10 ∨ m = 11 ∨ m = 12 := by
    simp only at h hmonth
    omega
  rcases hcases with rfl | rfl | rfl | rfl | rfl | rfl | rfl | rfl | rfl | rfl <;>
    simp [daysInMonth] at hlast ⊢ <;> omega

/-- January and February come before March. -/
theorem early_bounds {d : Date} (hd : d.Valid) (h : d.month ≤ 2) :
    yearStart (d.year - 1) + 306 ≤ d.toDays ∧ d.toDays < yearStart d.year := by
  have hpred := yearStart_pred d.year
  have hday := hd.day
  have hmonth := hd.month
  rw [toDays_early hd h]
  refine ⟨by omega, ?_⟩
  by_cases hfeb : d.month = 2
  · have hlast : d.day ≤ if isLeap d.year then 29 else 28 := by
      have hlast := hd.2
      rwa [hfeb] at hlast
    split at hlast
    · next hleap =>
      rw [if_pos hleap] at hpred
      omega
    · next hleap =>
      rw [if_neg hleap] at hpred
      omega
  · split at hpred <;> omega

theorem late_bounds {d : Date} (hd : d.Valid) (h : ¬ d.month ≤ 2) :
    yearStart d.year ≤ d.toDays ∧ d.toDays < yearStart d.year + 306 := by
  have hday := hd.day
  have hmonth := hd.month
  rw [toDays_late hd h]
  omega

/-- Earlier in the calendar. -/
def Before (a b : Date) : Prop :=
  a.year < b.year ∨ a.year = b.year ∧ (a.month < b.month ∨ a.month = b.month ∧ a.day < b.day)

theorem before_or_eq (a b : Date) : a.Before b ∨ a = b ∨ b.Before a := by
  obtain ⟨y, m, d⟩ := a
  obtain ⟨y', m', d'⟩ := b
  simp only [Before, mk.injEq]
  omega

theorem toDays_lt_of_year {a b : Date} (ha : a.Valid) (hb : b.Valid) (h : a.year < b.year) : a.toDays < b.toDays := by
  have hmono : yearStart a.year ≤ yearStart (b.year - 1) := yearStart_mono (by omega)
  have hpred := yearStart_pred b.year
  have hupper : a.toDays < yearStart a.year + 306 := by
    by_cases hearly : a.month ≤ 2
    · have := (early_bounds ha hearly).2
      omega
    · exact (late_bounds ha hearly).2
  have hlower : yearStart (b.year - 1) + 306 ≤ b.toDays := by
    by_cases hearly : b.month ≤ 2
    · exact (early_bounds hb hearly).1
    · have := (late_bounds hb hearly).1
      split at hpred <;> omega
  omega

/-- Days are counted in the order of the calendar. -/
theorem toDays_lt {a b : Date} (ha : a.Valid) (hb : b.Valid) (h : a.Before b) : a.toDays < b.toDays := by
  rcases h with hyear | ⟨hyear, h⟩
  · exact toDays_lt_of_year ha hb hyear
  have hday := ha.day
  have hfirst := hb.day
  have hmonth := ha.month
  have hmonth' := hb.month
  by_cases hearly : a.month ≤ 2
  · by_cases hearly' : b.month ≤ 2
    · rw [toDays_early ha hearly, toDays_early hb hearly', hyear]
      omega
    · have hbefore := (early_bounds ha hearly).2
      have hafter := (late_bounds hb hearly').1
      rw [hyear] at hbefore
      omega
  · have hearly' : ¬ b.month ≤ 2 := by omega
    have hlast := ha.day_late hearly
    rw [toDays_late ha hearly, toDays_late hb hearly', hyear]
    omega

theorem ofDays_toDays {d : Date} (h : d.Valid) : ofDays d.toDays = d := by
  have hvalid := valid_ofDays d.toDays
  have hsame := toDays_ofDays d.toDays
  rcases before_or_eq (ofDays d.toDays) d with hbefore | heq | hbefore
  · have hlt := toDays_lt hvalid h hbefore
    omega
  · exact heq
  · have hlt := toDays_lt h hvalid hbefore
    omega

end Harvesting.Date
