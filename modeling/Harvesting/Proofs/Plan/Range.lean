import Harvesting.Proofs.Plan.Past
import Harvesting.Proofs.Settings.Keys
import Harvesting.Proofs.Time.Line

/-!
# Plans whose dates can be named

Three dates stand behind a decision: the width of the finished window, the end of the next one, and the
time up to which windows are closed. For bounds in years of four digits the first two can always be named.
The third one lies before the first day of the calendar when the settings ask for windows that have been
closed for too long, and settings that ask for that are accepted.

* `Checkpoint.Ends`, `Checkpoint.Moves` — a finished window, and one that has a width;
* `Planner.plan?_of_moves`, `Planner.plan?_of_rests` — the plan after such a window, and after all else;
* `Checkpoint.Moves.next_isSome` — the end of the next window can be named;
* `SourceSettings.planned_iff` — when there is a decision; `SourceSettings.unplanned` — settings that are
  accepted and have none.
-/

namespace Harvesting

/-- The bounds of the window, as far as there are any, lie in the years from `first` to `last`. -/
def Window.InYears (first last : Int) (w : Window) : Prop :=
  (∀ t ∈ w.lower, t.InYears first last) ∧ ∀ t ∈ w.upper, t.InYears first last

/-- The checkpoint ends the window from `lower` to `upper`. -/
structure Checkpoint.Ends (c : Checkpoint) (lower upper : Instant) : Prop where
  clean : c.isClean = true
  token : c.token = none
  window : c.window = ⟨some lower, some upper⟩

/-- Moreover the window has a width, so that the next one lies behind it. -/
structure Checkpoint.Moves (c : Checkpoint) (lower upper : Instant) : Prop extends c.Ends lower upper where
  width : 0 < upper.diff lower

namespace Planner

variable {p : Planner} {c : Checkpoint} {lower upper now : Instant}

/-- After a finished window that has a width, the end of the next one and the clock decide. -/
theorem plan?_of_moves (h : c.Moves lower upper) :
    p.plan? (some c) now = (upper.shift? (upper.diff lower)).bind fun next =>
      (now.shift? (-p.skew)).map fun horizon => if next ≤ horizon then .advance upper next else .wait := by
  obtain ⟨⟨hclean, htoken, hwindow⟩, hwidth⟩ := h
  have hlower : c.lower = some lower := congrArg Window.lower hwindow
  have hupper : c.upper = some upper := congrArg Window.upper hwindow
  have hnext : p.plan? (some c) now = p.next? lower upper now := by
    simp only [plan?, hclean, htoken, hlower, hupper, not_true_eq_false, if_false]
  rw [hnext, next?]
  simp only [Int.not_le.2 hwidth, if_false]
  cases upper.shift? (upper.diff lower) with
  | none => rfl
  | some next =>
      cases now.shift? (-p.skew) with
      | none => rfl
      | some horizon =>
          show (if next ≤ horizon then _ else _) = some (if next ≤ horizon then _ else _)
          split <;> rfl

/-- After any other checkpoint, no date is computed. -/
theorem plan?_of_rests (h : ∀ lower upper, ¬ c.Moves lower upper) : ∃ d, ∀ now, p.plan? (some c) now = some d := by
  cases hclean : c.isClean with
  | false =>
      refine ⟨.again ⟨c.lower, c.upper⟩, fun now => ?_⟩
      simp [plan?, hclean]
  | true =>
      cases htoken : c.token with
      | some token =>
          refine ⟨.resume token ⟨c.lower, c.upper⟩, fun now => ?_⟩
          simp [plan?, hclean, htoken]
      | none =>
          cases hlower : c.lower with
          | none =>
              refine ⟨.again ⟨none, c.upper⟩, fun now => ?_⟩
              simp [plan?, hclean, htoken, hlower]
          | some lower =>
              cases hupper : c.upper with
              | none =>
                  refine ⟨.again ⟨some lower, none⟩, fun now => ?_⟩
                  simp [plan?, hclean, htoken, hlower, hupper]
              | some upper =>
                  have hwidth : upper.diff lower ≤ 0 := by
                    rw [← Int.not_lt]
                    intro hwidth
                    exact h lower upper ⟨⟨hclean, htoken, by rw [Checkpoint.window, hlower, hupper]⟩, hwidth⟩
                  refine ⟨.again ⟨some lower, some upper⟩, fun now => ?_⟩
                  simp [plan?, hclean, htoken, hlower, hupper, next?, hwidth]

end Planner

/-- The end of the window after one in years of four digits can be named. -/
theorem Checkpoint.Moves.next_isSome {c : Checkpoint} {lower upper : Instant} (h : c.Moves lower upper)
    (hc : c.window.InYears 0 9999) : ∃ next, upper.shift? (upper.diff lower) = some next := by
  rw [h.window] at hc
  have hlower : lower.InYears 0 9999 := hc.1 lower rfl
  have hupper : upper.InYears 0 9999 := hc.2 upper rfl
  have hlowerSecs := hlower.secs_fourDigits
  have hupperSecs := hupper.secs_fourDigits
  have hnanos : lower.nanos < 2000000000 ∧ upper.nanos < 2000000000 := ⟨hlower.nanos, hupper.nanos⟩
  have hwidth := Instant.diff_near upper lower
  obtain ⟨hnext, hlow, hhigh⟩ := Instant.total_shift hupper.nanos (upper.diff lower)
  have hnext : (upper.shift (upper.diff lower)).nanos < 2000000000 := hnext
  have hpos := h.width
  have hrange : (upper.shift (upper.diff lower)).InRange := by
    have hmin : Date.minDays = -96465292 := rfl
    have hmax : Date.maxDays = 95026236 := rfl
    rw [Instant.inRange_iff, hmin, hmax]
    simp only [Instant.total] at hwidth hlow hhigh
    omega
  exact ⟨_, if_pos hrange⟩

/-- The end of the first hundred seconds of 1970. -/
def Checkpoint.ended : Checkpoint := ⟨none, some ⟨0, 0⟩, some ⟨100, 0⟩, none, okStatus⟩

theorem Checkpoint.ends_ended : ended.Ends ⟨0, 0⟩ ⟨100, 0⟩ := ⟨rfl, rfl, rfl⟩

theorem Checkpoint.inYears_ended : ended.window.InYears 0 9999 := by
  constructor
  · intro t ht
    cases ht
    exact ⟨by decide, by decide +kernel⟩
  · intro t ht
    cases ht
    exact ⟨by decide, by decide +kernel⟩

namespace SourceSettings

variable {s : SourceSettings} {now : Instant}

/-- A source that is accepted asks for a time that can be told. -/
theorem skew_of_check (h : s.check = .ok ()) : s.planner.skew = s.skewSecs * 1000000000 := by
  have hsome : s.skew? ≠ none := by
    intro hskew
    -- rule after rule, what is refused is not accepted
    simp only [check, hskew, bind, Except.bind, Option.isNone_none, if_true, throw, throwThe,
      MonadExceptOf.throw] at h
    split at h
    · cases h
    · split at h
      · cases h
      · split at h
        · cases h
        · split at h
          · cases h
          · split at h
            · cases h
            · split at h <;> cases h
  have hbound : -(Planner.maxSkew : Int) ≤ s.skewSecs ∧ (s.skewSecs : Int) ≤ Planner.maxSkew := by
    by_contra hbound
    exact hsome (if_neg hbound)
  rw [planner, skew?, Planner.skewOf?, if_pos hbound]
  rfl

/-- The time up to which windows are closed can be named if the calendar goes back that far. -/
theorem closed_isSome_iff (hcheck : s.check = .ok ()) (hnow : now.InYears 0 9999) :
    (∃ horizon, now.shift? (-s.planner.skew) = some horizon) ↔
      Date.minDays * Instant.secsPerDay ≤ now.seconds - s.skewSecs := by
  have hshift : (∃ horizon, now.shift? (-s.planner.skew) = some horizon) ↔
      (now.shift (-(s.skewSecs * 1000000000))).InRange := by
    simp [skew_of_check hcheck, Instant.shift?_eq_some]
  have hsecs := hnow.secs_fourDigits
  have hmin : Date.minDays = -96465292 := rfl
  have hmax : Date.maxDays = 95026236 := rfl
  have hsecond : now.seconds = now.secs ∨ now.seconds = now.secs + 1 := by
    rw [Instant.seconds]
    split
    · exact .inr rfl
    · exact .inl rfl
  rw [hshift]
  rcases Nat.eq_zero_or_pos s.skewSecs with hzero | hpos
  · have hnone : -((s.skewSecs : Int) * 1000000000) = 0 := by omega
    rw [hnone, Instant.shift_zero, hzero, hmin, Instant.secsPerDay]
    constructor
    · intro _
      omega
    · intro _
      exact hnow.inRange
  · rw [Instant.shift_back hnow.nanos hpos, Instant.inRange_iff, hmin, hmax, Instant.secsPerDay]
    simp only
    omega

/--
The end of the next window can be named after every checkpoint with bounds in years of four digits. So
planning gives a decision, unless a finished window is followed by the next one and the settings ask for
windows that have been closed since before the calendar starts.
-/
theorem planned_iff {c : Option Checkpoint} (hcheck : s.check = .ok ())
    (hc : ∀ c' ∈ c, c'.window.InYears 0 9999) (hnow : now.InYears 1970 9999) :
    (∀ c' ∈ c, ∀ lower upper, c'.Moves lower upper → ∃ next, upper.shift? (upper.diff lower) = some next) ∧
    ((∃ d, s.planner.plan? c now = some d) ↔
      ∀ c' ∈ c, ∀ lower upper, c'.Moves lower upper →
        Date.minDays * Instant.secsPerDay ≤ now.seconds - s.skewSecs) := by
  have hnext : ∀ c' ∈ c, ∀ lower upper, c'.Moves lower upper →
      ∃ next, upper.shift? (upper.diff lower) = some next :=
    fun c' hmem lower upper hmoves => hmoves.next_isSome (hc c' hmem)
  refine ⟨hnext, ?_⟩
  have hclosed := closed_isSome_iff hcheck (hnow.mono (by decide) (by decide))
  cases c with
  | none => exact ⟨fun _ c' hmem => (by cases hmem), fun _ => ⟨_, rfl⟩⟩
  | some c =>
      by_cases hrests : ∀ lower upper, ¬ c.Moves lower upper
      · obtain ⟨d, hd⟩ := Planner.plan?_of_rests (p := s.planner) hrests
        refine ⟨fun _ c' hmem lower upper hmoves => ?_, fun _ => ⟨d, hd now⟩⟩
        cases hmem
        exact absurd hmoves (hrests lower upper)
      · simp only [not_forall, not_not] at hrests
        obtain ⟨lower, upper, hmoves⟩ := hrests
        obtain ⟨next, hshift⟩ := hnext c rfl lower upper hmoves
        rw [Planner.plan?_of_moves hmoves, hshift, Option.bind_some]
        constructor
        · rintro ⟨d, hd⟩ c' hmem lower' upper' hmoves'
          obtain ⟨horizon, hhorizon, -⟩ := Option.map_eq_some_iff.1 hd
          exact hclosed.1 ⟨horizon, hhorizon⟩
        · intro h
          obtain ⟨horizon, hhorizon⟩ := hclosed.2 (h c rfl lower upper hmoves)
          rw [hhorizon]
          exact ⟨_, rfl⟩

/-- A source like any other. -/
def usual : SourceSettings := { SourceSettings.default with name := some "source" }

theorem planned_iff_usual :
    usual.check = .ok () ∧ Checkpoint.ended.window.InYears 0 9999 ∧ (⟨300, 0⟩ : Instant).InYears 1970 9999 ∧
      ∃ d, usual.planner.plan? (some .ended) ⟨300, 0⟩ = some d := by
  have hcheck : usual.check = .ok () := by decide +kernel
  have hnow : (⟨300, 0⟩ : Instant).InYears 1970 9999 := ⟨by decide, by decide +kernel⟩
  have hc : ∀ c ∈ some Checkpoint.ended, c.window.InYears 0 9999 := by
    intro c hmem
    cases hmem
    exact Checkpoint.inYears_ended
  obtain ⟨-, hplanned⟩ := planned_iff hcheck hc hnow
  refine ⟨hcheck, Checkpoint.inYears_ended, hnow, hplanned.2 ?_⟩
  intro c hmem lower upper _
  exact (by decide +kernel : Date.minDays * Instant.secsPerDay ≤ (⟨300, 0⟩ : Instant).seconds - usual.skewSecs)

/-- A source that asks for windows that have been closed for more than 300000 years. -/
def distant : SourceSettings := { usual with skewSecs := 10000000000000 }

/-- It is accepted, and no decision follows a finished window. -/
theorem unplanned :
    distant.check = .ok () ∧ Checkpoint.ended.window.InYears 0 9999 ∧ (⟨300, 0⟩ : Instant).InYears 1970 9999 ∧
      distant.planner.plan? (some .ended) ⟨300, 0⟩ = none :=
  ⟨by decide +kernel, Checkpoint.inYears_ended, ⟨by decide, by decide +kernel⟩, by decide +kernel⟩

end SourceSettings

end Harvesting
