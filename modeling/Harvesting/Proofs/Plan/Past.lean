import Harvesting.Proofs.Plan.Tile
import Harvesting.Settings.Source

/-!
# Windows that are over

A window that has been closed for as long as its planner asks stays so, as long as the clock does not go
back. Bounds are seconds or leap seconds here, as they are read back from a store.

* `Instant.Exact` — a second or a leap second; `Window.Exact` — bounds of this kind;
* `Instant.shift_back` — so many seconds earlier;
* `Planner.Past` — a bound lies as far back as the planner asks; `Planner.Past.mono` — and stays there;
* `Planner.past_of_advance` — the window that a planner enters is over, and it ends at a whole second.
-/

namespace Harvesting

namespace Instant

variable {a b t t' : Instant}

/-- The instant is a second or a leap second. -/
def Exact (t : Instant) : Prop := t.nanos = 0 ∨ t.nanos = nanosPerSec

/-- The seconds up to an instant, where a leap second is one of its own. -/
def seconds (t : Instant) : Int := if t.isLeap then t.secs + 1 else t.secs

theorem seconds_mono (h : t ≤ t') : t.seconds ≤ t'.seconds := by
  have h : t.secs < t'.secs ∨ t.secs = t'.secs ∧ t.nanos ≤ t'.nanos := h
  unfold seconds isLeap
  split <;> split <;> simp_all <;> omega

theorem shift_zero (t : Instant) : t.shift 0 = t := by
  cases hleap : t.isLeap with
  | true => simp [shift, hleap]
  | false =>
      have hlt : t.nanos < 1000000000 := Nat.lt_of_not_le (of_decide_eq_false hleap)
      simp only [shift, hleap, Int.zero_tdiv, Int.zero_tmod, Int.add_zero, Bool.false_eq_true, if_false]
      rw [if_neg (by omega), if_neg (by omega), Int.toNat_natCast]

/-- So many seconds before an instant. -/
theorem shift_back (h : t.nanos < 2 * nanosPerSec) {n : Nat} (hn : 0 < n) :
    t.shift (-(n * 1000000000)) = ⟨t.seconds - n, t.nanos % nanosPerSec⟩ := by
  have hsecond : nanosPerSec = 1000000000 := rfl
  have hmul : -((n : Int) * 1000000000) = -(n : Int) * 1000000000 := by omega
  have hdiv : (-((n : Int) * 1000000000)).tdiv 1000000000 = -n := by
    rw [hmul, Int.mul_tdiv_cancel _ (by decide)]
  have hmod : (-((n : Int) * 1000000000)).tmod 1000000000 = 0 := by
    rw [hmul, Int.mul_tmod_left]
  rw [shift, hdiv, hmod, seconds, hsecond]
  cases hleap : t.isLeap with
  | true =>
      -- what follows a leap second takes the place of it
      have hle : nanosPerSec ≤ t.nanos := by simpa [isLeap] using hleap
      simp only [if_true]
      rw [if_neg (by omega), if_pos (by omega), if_neg (by omega), if_neg (by omega), mk.injEq]
      omega
  | false =>
      have hlt : t.nanos < nanosPerSec := by simpa [isLeap] using hleap
      simp only [Bool.false_eq_true, if_false]
      rw [if_neg (by omega), if_neg (by omega), mk.injEq]
      omega

/-- A second lies before an instant so long ago if there are as many seconds from it to the instant. -/
theorem le_shift_back_iff (hb : b.Exact) (ht : t.nanos < 2 * nanosPerSec) {n : Nat} (hn : 0 < n) :
    b ≤ t.shift (-(n * 1000000000)) ↔ b.seconds + n ≤ t.seconds := by
  have hlt : t.nanos % nanosPerSec < nanosPerSec := Nat.mod_lt _ (by decide)
  rw [shift_back ht hn]
  show b.secs < t.seconds - n ∨ b.secs = t.seconds - n ∧ b.nanos ≤ t.nanos % nanosPerSec ↔ _
  rcases hb with hb | hb
  · have hbelow : b.seconds = b.secs := by simp [seconds, isLeap, hb, nanosPerSec]
    omega
  · have habove : b.seconds = b.secs + 1 := by simp [seconds, isLeap, hb]
    omega

/-- What lies before an instant so long ago lies before any later one so long ago. -/
theorem le_shift_back_mono (hb : b.Exact) (ht : t.nanos < 2 * nanosPerSec) (ht' : t'.nanos < 2 * nanosPerSec)
    (hle : t ≤ t') {n : Nat} (h : b ≤ t.shift (-(n * 1000000000))) : b ≤ t'.shift (-(n * 1000000000)) := by
  rcases Nat.eq_zero_or_pos n with rfl | hn
  · have hzero : -(((0 : Nat) : Int) * 1000000000) = 0 := rfl
    rw [hzero, shift_zero] at h
    rw [hzero, shift_zero]
    have hle : t.secs < t'.secs ∨ t.secs = t'.secs ∧ t.nanos ≤ t'.nanos := hle
    have h : b.secs < t.secs ∨ b.secs = t.secs ∧ b.nanos ≤ t.nanos := h
    show b.secs < t'.secs ∨ b.secs = t'.secs ∧ b.nanos ≤ t'.nanos
    omega
  · rw [le_shift_back_iff hb ht hn] at h
    rw [le_shift_back_iff hb ht' hn]
    exact Int.le_trans h (seconds_mono hle)

theorem exact_written (t : Instant) : t.written.Exact := t.nanos_written

/-- Some seconds after a second, or after a leap second, there is a second. -/
theorem shift_exact (h : t.Exact) {n : Int} (hn : 0 < n) : t.shift (n * 1000000000) = ⟨t.secs + n, 0⟩ := by
  have hdiv : (n * 1000000000).tdiv 1000000000 = n := Int.mul_tdiv_cancel n (by decide)
  have hmod : (n * 1000000000).tmod 1000000000 = 0 := Int.mul_tmod_left n 1000000000
  rcases h with h | h
  · have hleap : t.isLeap = false := by simp [isLeap, h, nanosPerSec]
    simp [shift, hdiv, hmod, hleap, h]
  · have hleap : t.isLeap = true := by simp [isLeap, h]
    simp [shift, hdiv, hmod, hleap, h, hn, nanosPerSec]

/-- The distance of two seconds is so many seconds. -/
theorem diff_exact (ha : a.Exact) (hb : b.Exact) : ∃ n : Int, b.diff a = n * 1000000000 := by
  rw [diff]
  generalize (if a.secOfDay < b.secOfDay then _ else _ : Int) = adjust
  have hsecond : nanosPerSec = 1000000000 := rfl
  refine ⟨b.secs - a.secs + adjust + (b.nanos / nanosPerSec : Nat) - (a.nanos / nanosPerSec : Nat), ?_⟩
  rcases ha with ha | ha <;> rcases hb with hb | hb <;> simp only [ha, hb, hsecond] <;> omega

/-- As long after a second as the second comes after another one, there is a whole second. -/
theorem whole_shift (ha : a.Exact) (hb : b.Exact) (h : 0 < b.diff a) : (b.shift (b.diff a)).Whole := by
  obtain ⟨n, hn⟩ := diff_exact ha hb
  rw [hn] at h ⊢
  rw [shift_exact hb (by omega)]
  rfl

end Instant

/-- The bounds of the window are seconds or leap seconds. -/
def Window.Exact (w : Window) : Prop := (∀ t ∈ w.lower, t.Exact) ∧ ∀ t ∈ w.upper, t.Exact

theorem Window.exact_written (w : Window) : w.written.Exact := by
  constructor
  · intro t ht
    obtain ⟨t, -, rfl⟩ := Option.map_eq_some_iff.1 ht
    exact t.exact_written
  · intro t ht
    obtain ⟨t, -, rfl⟩ := Option.map_eq_some_iff.1 ht
    exact t.exact_written

namespace Planner

variable {p : Planner} {a b now now' : Instant} {c : Checkpoint}

/-- The bound lies as far back as the planner asks. -/
def Past (p : Planner) (b now : Instant) : Prop := b ≤ now.shift (-p.skew)

/-- The planner asks for whole seconds. -/
def InSeconds (p : Planner) : Prop := ∃ n : Nat, p.skew = n * 1000000000

/-- What is as far back as the planner asks stays so. -/
theorem Past.mono (h : p.Past b now) (hp : p.InSeconds) (hb : b.Exact) (hnow : now.nanos < 2 * Instant.nanosPerSec)
    (hnow' : now'.nanos < 2 * Instant.nanosPerSec) (hle : now ≤ now') : p.Past b now' := by
  obtain ⟨n, hn⟩ := hp
  rw [Past, hn] at h ⊢
  exact Instant.le_shift_back_mono hb hnow hnow' hle h

theorem Closed.past (h : p.Closed b now) : p.Past b now := by
  obtain ⟨horizon, hshift, hle⟩ := h
  rw [Instant.shift?] at hshift
  split at hshift
  · cases hshift
    exact hle
  · cases hshift

/-- A window that is entered is over, and it ends at a whole second. -/
theorem past_of_advance (hc : c.window.Exact) (h : p.plan? (some c) now = some (.advance a b)) :
    p.Past b now ∧ b.Whole := by
  refine ⟨(closed_of_plan? h).past, ?_⟩
  cases follows_plan? h with
  | @advance _ lower _ _ _ _ hwindow hwidth hshift =>
      rw [hwindow] at hc
      have hwhole := Instant.whole_shift (hc.1 lower rfl) (hc.2 a rfl) hwidth
      rw [Instant.shift?] at hshift
      split at hshift
      · cases hshift
        exact hwhole
      · cases hshift

end Planner

/-- The planner of a source asks for whole seconds. -/
theorem SourceSettings.inSeconds (s : SourceSettings) : s.planner.InSeconds := by
  rw [Planner.InSeconds, planner, skew?, Planner.skewOf?]
  split
  · exact ⟨s.skewSecs, rfl⟩
  · exact ⟨Planner.defaultSkew, rfl⟩

end Harvesting
