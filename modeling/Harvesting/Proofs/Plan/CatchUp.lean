import Harvesting.Proofs.Plan.Range

/-!
# Catching up

A source that was not harvested for a while goes from window to window until the next one is not closed
yet. At a time that stands still this takes as many windows as fit between the last one and the time up to
which windows are closed; and what is entered at a time is entered at any later one.

* `Planner.CatchesUp` — the windows that are entered one after the other;
* `Planner.fitting` — how many there are; `Planner.fitting_eq` — the same as a quotient of distances;
* `Planner.Lag` — bounds and a time for which no date is out of reach; `Planner.Lag.next`;
* `Planner.catchesUp_iff` — the windows that are entered, by induction on their number;
* `Planner.advance_mono` — what is entered is entered later as well;
* `Planner.caught_up` — both; `Planner.leap_second` — within a leap second neither is so in general.
-/

namespace Harvesting

/-- The end of the next window of the same width. -/
def Window.following (lower upper : Instant) : Instant := ⟨upper.secs + (upper.secs - lower.secs), 0⟩

@[simp] theorem Window.secs_following (lower upper : Instant) :
    (Window.following lower upper).secs = upper.secs + (upper.secs - lower.secs) := rfl

theorem Window.whole_following (lower upper : Instant) : (Window.following lower upper).Whole := rfl

/-- Tiles are counted from any of them. -/
theorem Window.tile_succ (lower upper : Instant) (k : Nat) :
    Window.tile upper (Window.following lower upper) k = Window.tile lower upper (k + 1) := by
  have hwidth : upper.secs + (upper.secs - lower.secs) - upper.secs = upper.secs - lower.secs := by omega
  have hmul : ((k + 1 : Nat) : Int) * (upper.secs - lower.secs) =
      k * (upper.secs - lower.secs) + (upper.secs - lower.secs) := by
    rw [Int.natCast_succ, Int.add_mul, Int.one_mul]
  simp only [Window.tile, Window.following, hwidth, hmul, mk.injEq, Option.some.injEq, Instant.mk.injEq, and_true]
  omega

namespace Planner

variable {p : Planner} {c : Checkpoint} {lower upper now horizon : Instant}

/--
The windows that are entered from a checkpoint on while the clock stands still, where each of them is
harvested to its end, up to the first decision to wait.
-/
inductive CatchesUp (p : Planner) (now : Instant) : Checkpoint → List Window → Prop where
  | wait {c : Checkpoint} : p.plan? (some c) now = some .wait → CatchesUp p now c []
  | advance {c c' : Checkpoint} {a b : Instant} {ws : List Window} :
      p.plan? (some c) now = some (.advance a b) → c'.Ends a b → CatchesUp p now c' ws →
      CatchesUp p now c (⟨some a, some b⟩ :: ws)

/-- How many further windows of the same width fit in the seconds up to `horizon`. -/
def fitting (lower upper horizon : Instant) : Nat :=
  ((horizon.secs - upper.secs) / (upper.secs - lower.secs)).toNat

/-- Outside leap seconds this is the quotient of the distances, also for a fraction of a second. -/
theorem fitting_eq (hlower : lower.Whole) (hupper : upper.Whole) (hhorizon : horizon.isLeap = false) :
    fitting lower upper horizon = (horizon.diff upper / upper.diff lower).toNat := by
  have hnanos : horizon.nanos < Instant.nanosPerSec := by simpa [Instant.isLeap] using hhorizon
  have hnanos : horizon.nanos < 1000000000 := hnanos
  have hlag : horizon.diff upper = (horizon.secs - upper.secs) * 1000000000 + horizon.nanos := by
    simp only [Instant.diff, hhorizon, hupper.isLeap]
    rw [Instant.Whole] at hupper
    simp [hupper]
  have hseconds : horizon.diff upper / 1000000000 = horizon.secs - upper.secs := by omega
  rw [fitting, Instant.diff_of_whole hupper hlower, Int.mul_comm, ← Int.ediv_ediv_of_nonneg (by decide), hseconds]

/--
A window of whole seconds that has a width, and the time up to which windows are closed. The next window
can be named, and so can all that end by then.
-/
structure Lag (lower upper horizon : Instant) : Prop where
  wholeLower : lower.Whole
  wholeUpper : upper.Whole
  width : lower.secs < upper.secs
  low : -62208000000 ≤ lower.secs
  high : upper.secs ≤ 253411200000
  closed : horizon.secs ≤ 253411200000

/-- A window that is entered is in the place of the one before. -/
theorem Lag.next (h : Lag lower upper horizon) (hle : (Window.following lower upper).secs ≤ horizon.secs) :
    Lag upper (Window.following lower upper) horizon where
  wholeLower := h.wholeUpper
  wholeUpper := Window.whole_following lower upper
  width := by
    have hwidth := h.width
    show upper.secs < upper.secs + (upper.secs - lower.secs)
    omega
  low := by
    have hlow := h.low
    have hwidth := h.width
    omega
  high := Int.le_trans hle h.closed
  closed := h.closed

/-- The next window is entered if it ends by then. -/
theorem Lag.plan?_eq (h : Lag lower upper horizon) (hc : c.Ends lower upper)
    (hhorizon : now.shift? (-p.skew) = some horizon) :
    p.plan? (some c) now = some (if (Window.following lower upper).secs ≤ horizon.secs
      then .advance upper (Window.following lower upper) else .wait) := by
  obtain ⟨hlower, hupper, hwidth, hlow, hhigh, -⟩ := h
  have hdiff := Instant.diff_of_whole hupper hlower
  have hmoves : c.Moves lower upper := ⟨hc, by omega⟩
  have hrange : (Window.following lower upper).InRange := by
    have hmin : Date.minDays = -96465292 := rfl
    have hmax : Date.maxDays = 95026236 := rfl
    rw [Instant.inRange_iff, hmin, hmax, Window.following]
    simp only
    omega
  have hnext : upper.shift? (upper.diff lower) = some (Window.following lower upper) := by
    rw [hdiff, Instant.shift?, Instant.shift_of_whole hupper]
    exact if_pos hrange
  have hle : Window.following lower upper ≤ horizon ↔ (Window.following lower upper).secs ≤ horizon.secs := by
    show _ < horizon.secs ∨ _ = horizon.secs ∧ 0 ≤ horizon.nanos ↔ _
    omega
  rw [plan?_of_moves hmoves, hnext, hhorizon]
  simp only [Option.bind_some, Option.map_some, hle]

/-- The next window ends by then if there is one that fits. -/
theorem following_le_iff (hwidth : lower.secs < upper.secs) :
    (Window.following lower upper).secs ≤ horizon.secs ↔ 0 < fitting lower upper horizon := by
  have hfits : 1 ≤ (horizon.secs - upper.secs) / (upper.secs - lower.secs) ↔
      1 * (upper.secs - lower.secs) ≤ horizon.secs - upper.secs := Int.le_ediv_iff_mul_le (by omega)
  rw [fitting, Window.secs_following]
  omega

/-- A window that is entered leaves one less that fits. -/
theorem fitting_following (hwidth : lower.secs < upper.secs) :
    fitting upper (Window.following lower upper) horizon = fitting lower upper horizon - 1 := by
  have hlag : horizon.secs - (upper.secs + (upper.secs - lower.secs)) =
      horizon.secs - upper.secs + -1 * (upper.secs - lower.secs) := by omega
  have hsame : upper.secs + (upper.secs - lower.secs) - upper.secs = upper.secs - lower.secs := by omega
  rw [fitting, fitting, Window.secs_following, hsame, hlag, Int.add_mul_ediv_right _ _ (by omega)]
  omega

/-- As many windows are entered as fit, one behind the other. -/
theorem catchesUp_iff (hhorizon : now.shift? (-p.skew) = some horizon) (h : Lag lower upper horizon)
    (hc : c.Ends lower upper) {ws : List Window} :
    p.CatchesUp now c ws ↔
      ws = (List.range (fitting lower upper horizon)).map fun k => Window.tile lower upper (k + 1) := by
  -- on the number of windows that fit
  generalize hn : fitting lower upper horizon = n
  induction n generalizing lower upper c ws with
  | zero =>
      have hplan := h.plan?_eq hc hhorizon
      have hfull : ¬ (Window.following lower upper).secs ≤ horizon.secs := by
        rw [following_le_iff h.width]
        omega
      rw [if_neg hfull] at hplan
      constructor
      · intro hws
        cases hws with
        | wait _ => rfl
        | advance hadvance _ _ =>
            rw [hplan] at hadvance
            cases hadvance
      · rintro rfl
        exact .wait hplan
  | succ m ih =>
      have hplan := h.plan?_eq hc hhorizon
      have hfits : (Window.following lower upper).secs ≤ horizon.secs := by
        rw [following_le_iff h.width]
        omega
      rw [if_pos hfits] at hplan
      have hrest : fitting upper (Window.following lower upper) horizon = m := by
        rw [fitting_following h.width]
        omega
      have htiles : (List.range (m + 1)).map (fun k => Window.tile lower upper (k + 1)) =
          ⟨some upper, some (Window.following lower upper)⟩ ::
            (List.range m).map fun k => Window.tile upper (Window.following lower upper) (k + 1) := by
        simp only [Window.tile_succ, List.range_succ_eq_map, List.map_cons, List.map_map, Function.comp_def]
        rw [← Window.tile_succ, Window.tile_zero h.wholeUpper (Window.whole_following lower upper)]
      rw [htiles]
      constructor
      · intro hws
        cases hws with
        | wait hwait =>
            rw [hplan] at hwait
            cases hwait
        | advance hadvance hends hws =>
            rw [hplan] at hadvance
            cases hadvance
            rw [(ih (h.next hfits) hends hrest).1 hws]
      · rintro rfl
        have hends : (⟨none, some upper, some (Window.following lower upper), none,
            Checkpoint.okStatus⟩ : Checkpoint).Ends upper (Window.following lower upper) := ⟨rfl, rfl, rfl⟩
        exact .advance hplan hends ((ih (h.next hfits) hends hrest).2 rfl)

/-! ## Bounds in years of four digits -/

/-- What is nanoseconds back is not within a leap second unless the clock is. -/
theorem isLeap_horizon (hnow : now.isLeap = false) (hskew : 0 ≤ p.skew)
    (hhorizon : now.shift? (-p.skew) = some horizon) : horizon.isLeap = false := by
  have hnanos : now.nanos < Instant.nanosPerSec := by simpa [Instant.isLeap] using hnow
  obtain ⟨-, -, hout⟩ := Instant.total_shift_back (t := now) (by omega) hskew
  obtain ⟨-, rfl⟩ := Instant.shift?_eq_some.1 hhorizon
  simpa [Instant.isLeap] using hout (by omega)

theorem Lag.of_years (hlower : lower.Whole) (hupper : upper.Whole) (hlt : lower < upper)
    (hlowerYears : lower.InYears 0 9999) (hupperYears : upper.InYears 0 9999) (hnow : now.InYears 0 9999)
    (hskew : 0 ≤ p.skew) (hhorizon : now.shift? (-p.skew) = some horizon) : Lag lower upper horizon where
  wholeLower := hlower
  wholeUpper := hupper
  width := by
    have hlt : lower.secs < upper.secs ∨ lower.secs = upper.secs ∧ lower.nanos < upper.nanos := hlt
    rw [Instant.Whole] at hlower hupper
    omega
  low := hlowerYears.secs_fourDigits.1
  high := Int.le_of_lt hupperYears.secs_fourDigits.2
  closed := by
    have hsecs := hnow.secs_fourDigits
    have hnanos : now.nanos < 2000000000 := hnow.nanos
    obtain ⟨htotal, -, -⟩ := Instant.total_shift_back hnow.nanos hskew
    obtain ⟨-, rfl⟩ := Instant.shift?_eq_some.1 hhorizon
    simp only [Instant.total] at htotal
    omega

/-! ## Later times -/

variable {a b now' : Instant}

/-- Outside leap seconds, what is as far back as the planner asks stays so, for parts of a second as well. -/
theorem Past.later (hskew : 0 ≤ p.skew) (hnow : now.isLeap = false) (hnow' : now'.nanos < 2 * Instant.nanosPerSec)
    (hle : now ≤ now') (h : p.Past b now) : p.Past b now' := by
  have hnanos : now.nanos < Instant.nanosPerSec := by simpa [Instant.isLeap] using hnow
  have hback : now.shift (-p.skew) ≤ now'.shift (-p.skew) := Instant.shift_back_mono hnanos hnow' hle hskew
  exact Instant.le_trans h hback

/-- What is as far back as the planner asks can be compared with the clock. -/
theorem Past.closed (hskew : 0 ≤ p.skew) (hb : b.InRange) (hnow : now.InYears 0 9999) (h : p.Past b now) :
    p.Closed b now := by
  have hsecs := hnow.secs_fourDigits
  have hnanos : now.nanos < 2000000000 := hnow.nanos
  have hle : b.secs ≤ (now.shift (-p.skew)).secs := by
    have h : b.secs < (now.shift (-p.skew)).secs ∨ _ := h
    omega
  have hrange : (now.shift (-p.skew)).InRange := by
    have hmax : Date.maxDays = 95026236 := rfl
    obtain ⟨htotal, -, -⟩ := Instant.total_shift_back hnow.nanos hskew
    rw [Instant.inRange_iff] at hb ⊢
    simp only [Instant.total] at htotal
    omega
  exact ⟨_, if_pos hrange, h⟩

/-- What is entered at a time is entered at any later one. -/
theorem advance_mono (hskew : 0 ≤ p.skew) (hnow : now.nanos < 2 * Instant.nanosPerSec) (hnow' : now'.InYears 0 9999)
    (hle : now ≤ now') (hexact : now.isLeap = false ∨ p.InSeconds ∧ c.window.Exact)
    (h : p.plan? (some c) now = some (.advance a b)) : p.plan? (some c) now' = some (.advance a b) := by
  have hpast : p.Past b now' := by
    have hpast := (closed_of_plan? h).past
    rcases hexact with hleap | ⟨hp, hc⟩
    · exact hpast.later hskew hleap hnow'.nanos hle
    · exact hpast.mono hp (.inl (past_of_advance hc h).2) hnow hnow'.nanos hle
  cases follows_plan? h with
  | advance hclean htoken hwindow hwidth hshift =>
      have hb : b.InRange := by
        obtain ⟨hrange, rfl⟩ := Instant.shift?_eq_some.1 hshift
        exact hrange
      obtain ⟨horizon, hhorizon, hbefore⟩ := hpast.closed hskew hb hnow'
      rw [plan?_of_moves ⟨⟨hclean, htoken, hwindow⟩, hwidth⟩, hshift, hhorizon, Option.bind_some,
        Option.map_some, if_pos hbefore]

/--
At a time that stands still, a planner goes from a finished window of whole seconds through as many further
ones of its width as fit before the time that lies back by the skew, each where the one before it ended, and
then waits; unless that time is within a leap second, their number is the quotient of the two distances. And
what it enters at a time it enters at any later one, where times within a leap second need a skew and bounds
of whole seconds.
-/
theorem caught_up (p : Planner) (hskew : 0 ≤ p.skew) (now : Instant) (hnow : now.InYears 0 9999) :
    (∀ (c : Checkpoint) (lower upper horizon : Instant), c.Ends lower upper → lower.Whole → upper.Whole →
      lower < upper → lower.InYears 0 9999 → upper.InYears 0 9999 → now.shift? (-p.skew) = some horizon →
      (∀ ws, p.CatchesUp now c ws ↔
        ws = (List.range (fitting lower upper horizon)).map fun k => Window.tile lower upper (k + 1)) ∧
      (now.isLeap = false ∨ horizon.isLeap = false →
        fitting lower upper horizon = (horizon.diff upper / upper.diff lower).toNat)) ∧
    (∀ (c : Checkpoint) (a b now' : Instant), now ≤ now' → now'.InYears 0 9999 →
      now.isLeap = false ∨ p.InSeconds ∧ c.window.Exact →
      p.plan? (some c) now = some (.advance a b) → p.plan? (some c) now' = some (.advance a b)) := by
  constructor
  · intro c lower upper horizon hc hlower hupper hlt hlowerYears hupperYears hhorizon
    have hlag := Lag.of_years hlower hupper hlt hlowerYears hupperYears hnow hskew hhorizon
    refine ⟨fun ws => catchesUp_iff hhorizon hlag hc, ?_⟩
    rintro (hleap | hleap)
    · exact fitting_eq hlower hupper (isLeap_horizon hleap hskew hhorizon)
    · exact fitting_eq hlower hupper hleap
  · intro c a b now' hle hnow' hexact h
    exact advance_mono hskew hnow.nanos hnow' hle hexact h

/-- Two windows of a hundred seconds fit before the time 15 seconds ago. -/
theorem caught_up_twice :
    let p : Planner := ⟨⟨none, none⟩, 15000000000⟩
    let now : Instant := ⟨315, 500000000⟩
    now.InYears 0 9999 ∧
      (∀ ws, p.CatchesUp now .ended ws ↔
        ws = [⟨some ⟨100, 0⟩, some ⟨200, 0⟩⟩, ⟨some ⟨200, 0⟩, some ⟨300, 0⟩⟩]) ∧
      p.plan? (some .ended) ⟨400, 0⟩ = some (.advance ⟨100, 0⟩ ⟨200, 0⟩) := by
  intro p now
  have hnow : now.InYears 0 9999 := ⟨by decide, by decide +kernel⟩
  have hlater : (⟨400, 0⟩ : Instant).InYears 0 9999 := ⟨by decide, by decide +kernel⟩
  obtain ⟨hwindows, hmono⟩ := caught_up p (by decide) now hnow
  refine ⟨hnow, ?_, ?_⟩
  · exact (hwindows .ended ⟨0, 0⟩ ⟨100, 0⟩ ⟨300, 500000000⟩ Checkpoint.ends_ended rfl rfl (by decide)
      ⟨by decide, by decide +kernel⟩ ⟨by decide, by decide +kernel⟩ (by decide +kernel)).1
  · exact hmono .ended ⟨100, 0⟩ ⟨200, 0⟩ ⟨400, 0⟩ (by decide) hlater (.inl rfl) (by decide +kernel)

/-- The end of a second before the leap second of 2016, which shares second 1483228799. -/
def leapEve (upper : Int) : Checkpoint :=
  ⟨none, some ⟨upper - 1, 0⟩, some ⟨upper, 0⟩, none, Checkpoint.okStatus⟩

/--
At the start of the leap second, one second has passed since the end of the last window, and the planner
waits, because the next second comes after the leap second. With a skew of 1.3 seconds a window is entered
within the leap second and not entered 0.7 seconds later, because the skew then leads across it.
-/
theorem leap_second :
    (∃ (p : Planner) (lower upper now horizon : Instant),
      0 ≤ p.skew ∧ now.InYears 0 9999 ∧ (leapEve 1483228799).Ends lower upper ∧ lower.Whole ∧ upper.Whole ∧
      lower < upper ∧ lower.InYears 0 9999 ∧ upper.InYears 0 9999 ∧ now.shift? (-p.skew) = some horizon ∧
      (horizon.diff upper / upper.diff lower).toNat = 1 ∧
      ∀ ws, p.CatchesUp now (leapEve 1483228799) ws ↔ ws = []) ∧
    ∃ (p : Planner) (a b now now' : Instant),
      0 ≤ p.skew ∧ now.InYears 0 9999 ∧ now'.InYears 0 9999 ∧ now ≤ now' ∧
      p.plan? (some (leapEve 1483228798)) now = some (.advance a b) ∧
      p.plan? (some (leapEve 1483228798)) now' = some .wait := by
  have heve : (⟨1483228798, 0⟩ : Instant).InYears 0 9999 := ⟨by decide, by decide +kernel⟩
  have hend : (⟨1483228799, 0⟩ : Instant).InYears 0 9999 := ⟨by decide, by decide +kernel⟩
  constructor
  · have hnow : (⟨1483228799, 1000000000⟩ : Instant).InYears 0 9999 := ⟨by decide, by decide +kernel⟩
    have hends : (leapEve 1483228799).Ends ⟨1483228798, 0⟩ ⟨1483228799, 0⟩ := ⟨rfl, rfl, rfl⟩
    have hhorizon : (⟨1483228799, 1000000000⟩ : Instant).shift? (-(0 : Int)) =
        some ⟨1483228799, 1000000000⟩ := by decide +kernel
    have hlag : Lag ⟨1483228798, 0⟩ ⟨1483228799, 0⟩ ⟨1483228799, 1000000000⟩ :=
      ⟨rfl, rfl, by decide, by decide, by decide, by decide⟩
    exact ⟨⟨⟨none, none⟩, 0⟩, ⟨1483228798, 0⟩, ⟨1483228799, 0⟩, _, _, by decide, hnow, hends, rfl, rfl, by decide,
      heve, hend, hhorizon, by decide, fun ws => catchesUp_iff hhorizon hlag hends⟩
  · exact ⟨⟨⟨none, none⟩, 1300000000⟩, ⟨1483228798, 0⟩, ⟨1483228799, 0⟩, ⟨1483228799, 1500000000⟩,
      ⟨1483228800, 200000000⟩, by decide, ⟨by decide, by decide +kernel⟩, ⟨by decide, by decide +kernel⟩,
      by decide, by decide +kernel, by decide +kernel⟩

end Planner

end Harvesting
