import Harvesting.Proofs.Time.Stamp

/-!
# Instants on a line

How far a shift goes, counted in nanoseconds. A leap second repeats the second after it, so that a shift
that leaves it forward falls short by one second; a shift back goes exactly as far as it should.

* `Instant.total` — nanoseconds since 1970; `Instant.ofTotal` — the instant that has so many;
* `Instant.total_shift` — what a shift adds; `Instant.shift_back_eq` — a shift back in full;
* `Instant.shift_back_mono` — what comes later comes later as well so long before, but for leap seconds;
* `Instant.diff_near` — a distance differs from that on the line by one second at most;
* `Instant.InYears` — the years in which an instant lies; `Instant.InYears.secs_fourDigits` — as seconds.
-/

namespace Harvesting

namespace Instant

variable {a b t t' : Instant}

protected theorem le_trans {c : Instant} (hab : a ≤ b) (hbc : b ≤ c) : a ≤ c := by
  have hab : a.secs < b.secs ∨ a.secs = b.secs ∧ a.nanos ≤ b.nanos := hab
  have hbc : b.secs < c.secs ∨ b.secs = c.secs ∧ b.nanos ≤ c.nanos := hbc
  show a.secs < c.secs ∨ a.secs = c.secs ∧ a.nanos ≤ c.nanos
  omega

/-- Nanoseconds since 1970-01-01T00:00:00Z. A leap second has the same ones as the second after it. -/
def total (t : Instant) : Int := t.secs * 1000000000 + t.nanos

/-- The instant outside leap seconds that so many nanoseconds lead to. -/
def ofTotal (n : Int) : Instant := ⟨n / 1000000000, (n % 1000000000).toNat⟩

theorem nanos_ofTotal (n : Int) : (ofTotal n).nanos < nanosPerSec := by
  show (n % 1000000000).toNat < 1000000000
  omega

theorem eq_ofTotal (h : t.nanos < nanosPerSec) : t = ofTotal t.total := by
  obtain ⟨secs, nanos⟩ := t
  have h : nanos < 1000000000 := h
  have hsecs : (secs * 1000000000 + nanos) / 1000000000 = secs := by omega
  have hnanos : ((secs * 1000000000 + nanos) % 1000000000).toNat = nanos := by omega
  rw [ofTotal, total]
  simp only [hsecs, hnanos]

/-- Outside leap seconds, instants are ordered as the nanoseconds are. -/
theorem ofTotal_le {m n : Int} (h : m ≤ n) : ofTotal m ≤ ofTotal n := by
  show m / 1000000000 < n / 1000000000 ∨ m / 1000000000 = n / 1000000000 ∧
    (m % 1000000000).toNat ≤ (n % 1000000000).toNat
  omega

/-- Seconds and nanoseconds of a distance have its sign. -/
theorem tdiv_parts (n : Int) : ∃ q r, n.tdiv 1000000000 = q ∧ n.tmod 1000000000 = r ∧
    n = q * 1000000000 + r ∧ -1000000000 < r ∧ r < 1000000000 ∧
    (0 ≤ n → 0 ≤ q ∧ 0 ≤ r) ∧ (n ≤ 0 → q ≤ 0 ∧ r ≤ 0) := by
  have hsum := Int.mul_tdiv_add_tmod n 1000000000
  have hpos : 0 ≤ n → 0 ≤ n.tdiv 1000000000 ∧ 0 ≤ n.tmod 1000000000 := by
    intro hn
    exact ⟨Int.tdiv_nonneg hn (by decide), Int.tmod_nonneg _ hn⟩
  have hneg : n ≤ 0 → n.tdiv 1000000000 ≤ 0 ∧ n.tmod 1000000000 ≤ 0 := by
    intro hn
    have hrest : 0 ≤ (-n).tmod 1000000000 := Int.tmod_nonneg _ (by omega)
    have hquot : 0 ≤ (-n).tdiv 1000000000 := Int.tdiv_nonneg (by omega) (by decide)
    rw [Int.neg_tmod] at hrest
    rw [Int.neg_tdiv] at hquot
    omega
  have hlow : -1000000000 < n.tmod 1000000000 := Int.lt_tmod_of_pos n (by decide)
  have hhigh : n.tmod 1000000000 < 1000000000 := Int.tmod_lt_of_pos n (by decide)
  exact ⟨_, _, rfl, rfl, by omega, hlow, hhigh, hpos, hneg⟩

/-! ## Shifts -/

theorem shift?_eq_some {n : Int} : t.shift? n = some t' ↔ (t.shift n).InRange ∧ t.shift n = t' := by
  rw [shift?]
  split
  · next hrange => simp [hrange]
  · next hrange => simp [hrange]

/-- A shift adds what it should, or a second less where it goes on behind a leap second. -/
theorem total_shift (h : t.nanos < 2 * nanosPerSec) (n : Int) :
    (t.shift n).nanos < 2 * nanosPerSec ∧ t.total + n - 1000000000 ≤ (t.shift n).total ∧
      (t.shift n).total ≤ t.total + n := by
  obtain ⟨q, r, hq, hr, hn, hlow, hhigh, -, -⟩ := tdiv_parts n
  have hsecond : nanosPerSec = 1000000000 := rfl
  rw [hsecond] at h
  simp only [shift, hq, hr, total, hsecond]
  split
  · next hleap =>
    have hle : nanosPerSec ≤ t.nanos := by simpa [isLeap] using hleap
    rw [hsecond] at hle
    split
    · split <;> [skip; split] <;> simp only <;> omega
    · split
      · split <;> [skip; split] <;> simp only <;> omega
      · simp only
        omega
  · split <;> [skip; split] <;> simp only <;> omega

/-- A shift back goes as far as it should, and ends outside a leap second unless it stays in one. -/
theorem total_shift_back (h : t.nanos < 2 * nanosPerSec) {n : Int} (hn : 0 ≤ n) :
    (t.shift (-n)).total = t.total - n ∧ (nanosPerSec + n ≤ t.nanos → (t.shift (-n)).secs = t.secs) ∧
      (t.nanos < nanosPerSec + n → (t.shift (-n)).nanos < nanosPerSec) := by
  obtain ⟨q, r, hq, hr, hsum, hlow, hhigh, -, hneg⟩ := tdiv_parts (-n)
  obtain ⟨hq0, hr0⟩ := hneg (by omega)
  have hsecond : nanosPerSec = 1000000000 := rfl
  rw [hsecond] at h
  simp only [shift, hq, hr, total, hsecond]
  split
  · next hleap =>
    have hle : nanosPerSec ≤ t.nanos := by simpa [isLeap] using hleap
    rw [hsecond] at hle
    rw [if_neg (by omega)]
    split
    · split <;> [skip; split] <;> simp only <;> omega
    · refine ⟨?_, fun _ => rfl, ?_⟩ <;> simp only <;> omega
  · next hleap =>
    have hlt : t.nanos < nanosPerSec := by simpa [isLeap] using hleap
    rw [hsecond] at hlt
    split <;> [skip; split] <;> simp only <;> omega

/-- A shift back either stays within the leap second or leads to the nanosecond so long before. -/
theorem shift_back_eq (h : t.nanos < 2 * nanosPerSec) {n : Int} (hn : 0 ≤ n) :
    t.shift (-n) = if nanosPerSec + n ≤ t.nanos then ⟨t.secs, (t.nanos - n).toNat⟩ else ofTotal (t.total - n) := by
  obtain ⟨htotal, hin, hout⟩ := total_shift_back h hn
  split
  · next hstays =>
    have hsecs := hin hstays
    rw [total, total, hsecs] at htotal
    have hnanos : (t.shift (-n)).nanos = (t.nanos - n).toNat := by omega
    rw [← hsecs, ← hnanos]
  · next hleaves =>
    rw [← htotal]
    exact eq_ofTotal (hout (by omega))

/-- Outside a leap second, what comes later comes later as well so long before. -/
theorem shift_back_mono (hlt : t.nanos < nanosPerSec) (h' : t'.nanos < 2 * nanosPerSec) (hle : t ≤ t') {n : Int}
    (hn : 0 ≤ n) : t.shift (-n) ≤ t'.shift (-n) := by
  have hle : t.secs < t'.secs ∨ t.secs = t'.secs ∧ t.nanos ≤ t'.nanos := hle
  have hsecond : nanosPerSec = 1000000000 := rfl
  have hback : t.shift (-n) = ofTotal (t.total - n) := by
    rw [shift_back_eq (by omega) hn, if_neg (by omega)]
  rw [hback, shift_back_eq h' hn]
  split
  · next hstays =>
    -- the second that is left of `t` is at most that of `t'`, and its nanoseconds are fewer
    have hnanos := nanos_ofTotal (t.total - n)
    have hsecs : (ofTotal (t.total - n)).secs ≤ t.secs := by
      show (t.secs * 1000000000 + t.nanos - n) / 1000000000 ≤ t.secs
      omega
    show (ofTotal (t.total - n)).secs < t'.secs ∨ (ofTotal (t.total - n)).secs = t'.secs ∧
      (ofTotal (t.total - n)).nanos ≤ (t'.nanos - n).toNat
    omega
  · apply ofTotal_le
    rw [total, total]
    omega

/-! ## Distances -/

/-- A distance differs from that on the line by one second at most. -/
theorem diff_near (a b : Instant) :
    a.total - b.total - 1000000000 ≤ a.diff b ∧ a.diff b ≤ a.total - b.total + 1000000000 := by
  rw [diff, total, total]
  split <;> [split; split <;> [split; skip]] <;> omega

/-! ## Years -/

/-- An instant lies on a day that can be named if its second lies between the first and the last one. -/
theorem inRange_iff :
    t.InRange ↔ Date.minDays * 86400 ≤ t.secs ∧ t.secs < (Date.maxDays + 1) * 86400 := by
  rw [InRange, day, secsPerDay]
  omega

/-- The instant can be named, and it lies in the years from `first` to `last`. -/
structure InYears (first last : Int) (t : Instant) : Prop where
  nanos : t.nanos < 2 * nanosPerSec
  year : first ≤ (Date.ofDays t.day).year ∧ (Date.ofDays t.day).year ≤ last

theorem InYears.mono {first last first' last' : Int} (h : t.InYears first last) (hfirst : first' ≤ first)
    (hlast : last ≤ last') : t.InYears first' last' where
  nanos := h.nanos
  year := ⟨Int.le_trans hfirst h.year.1, Int.le_trans h.year.2 hlast⟩

/-- The years of four digits lie within 720000 days before 1970 and 2933000 days after it. -/
theorem InYears.secs_fourDigits (h : t.InYears 0 9999) : -62208000000 ≤ t.secs ∧ t.secs < 253411200000 := by
  have hvalid := Date.valid_ofDays t.day
  have hmonth := hvalid.month
  have hday := hvalid.day
  have hyear := h.year
  have hcount := Date.toDays_ofDays t.day
  rw [Date.toDays_eq rfl rfl] at hcount
  have hdays : -720000 ≤ t.day ∧ t.day < 2933000 := by
    split at hcount <;> omega
  rw [day, secsPerDay] at hdays
  omega

theorem InYears.inRange (h : t.InYears 0 9999) : t.InRange := by
  have hsecs := h.secs_fourDigits
  have hmin : Date.minDays = -96465292 := rfl
  have hmax : Date.maxDays = 95026236 := rfl
  rw [inRange_iff, hmin, hmax]
  omega

end Instant

end Harvesting
