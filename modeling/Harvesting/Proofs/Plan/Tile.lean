import Harvesting.Proofs.Plan.Planner

/-!
# Windows that lie side by side

The windows of a source that has a width: the configured one, and each further one where the one before
it ends.

* `Window.tile` — the window so many widths after the configured one;
* `Planner.Closed` — a window has been closed for long enough;
* `Planner.follows_tile`, `Planner.closed_of_plan?` — what is planned after a tile.
-/

namespace Harvesting

/-- The window `k` widths after the window from `lower` to `upper`. -/
def Window.tile (lower upper : Instant) (k : Nat) : Window :=
  ⟨some ⟨lower.secs + k * (upper.secs - lower.secs), 0⟩, some ⟨upper.secs + k * (upper.secs - lower.secs), 0⟩⟩

variable {lower upper : Instant}

theorem Window.tile_zero (hlower : lower.Whole) (hupper : upper.Whole) :
    Window.tile lower upper 0 = ⟨some lower, some upper⟩ := by
  obtain ⟨lsecs, lnanos⟩ := lower
  obtain ⟨usecs, unanos⟩ := upper
  rw [Instant.Whole] at hlower hupper
  simp_all [Window.tile]

theorem Window.whole_tile (k : Nat) : (Window.tile lower upper k).Whole := by
  constructor
  · intro t ht
    cases ht
    rfl
  · intro t ht
    cases ht
    rfl

/-- Each tile begins where the one before it ends. -/
theorem Window.tile_lower (k : Nat) :
    (Window.tile lower upper (k + 1)).lower =
      some ⟨upper.secs + k * (upper.secs - lower.secs), 0⟩ := by
  have hnext : lower.secs + ((k + 1 : Nat) : Int) * (upper.secs - lower.secs) =
      upper.secs + k * (upper.secs - lower.secs) := by
    rw [Int.natCast_succ, Int.add_mul, Int.one_mul]
    omega
  rw [Window.tile, hnext]

/-- Of a window that has a width, no two tiles are the same. -/
theorem Window.tile_inj (hwidth : lower.secs < upper.secs) {j k : Nat}
    (h : Window.tile lower upper j = Window.tile lower upper k) : j = k := by
  have hsecs : lower.secs + j * (upper.secs - lower.secs) = lower.secs + k * (upper.secs - lower.secs) := by
    have hlower := congrArg Window.lower h
    simpa only [Window.tile, Option.some.injEq, Instant.mk.injEq, and_true] using hlower
  have hne : upper.secs - lower.secs ≠ 0 := by omega
  have hmul : (j : Int) * (upper.secs - lower.secs) = k * (upper.secs - lower.secs) := by omega
  exact Int.ofNat_inj.1 (Int.eq_of_mul_eq_mul_right hne hmul)

namespace Planner

/-- At this time a window up to `upper` has been closed for as long as the planner asks. -/
def Closed (p : Planner) (upper now : Instant) : Prop :=
  ∃ horizon, now.shift? (-p.skew) = some horizon ∧ upper ≤ horizon

variable {p : Planner} {c : Option Checkpoint} {now : Instant} {d : Decision}

/-- A window is entered only after it has been closed for long enough. -/
theorem closed_of_plan? {a b : Instant} (h : p.plan? c now = some (.advance a b)) : p.Closed b now := by
  cases c with
  | none => cases h
  | some c =>
      rw [plan?.eq_def] at h
      simp only at h
      split at h
      · cases h
      · split at h
        · cases h
        · next lower upper _ _ _ =>
          rw [next?] at h
          split at h
          · cases h
          · obtain ⟨upper', -, h⟩ := Option.bind_eq_some_iff.1 h
            obtain ⟨horizon, hhorizon, h⟩ := Option.bind_eq_some_iff.1 h
            split at h
            · next hle =>
              cases h
              exact ⟨horizon, hhorizon, hle⟩
            · cases h
        · cases h

/-- The window after a tile is the next tile. -/
theorem advance_tile {k : Nat} {a b a' b' : Instant} (hwindow : Window.tile lower upper k = ⟨some a, some b⟩)
    (hshift : b.shift? (b.diff a) = some b') (ha' : a' = b) :
    (⟨some a', some b'⟩ : Window) = Window.tile lower upper (k + 1) := by
  subst ha'
  have ha : a = ⟨lower.secs + k * (upper.secs - lower.secs), 0⟩ :=
    (Option.some.inj (congrArg Window.lower hwindow)).symm
  have hb : a' = ⟨upper.secs + k * (upper.secs - lower.secs), 0⟩ :=
    (Option.some.inj (congrArg Window.upper hwindow)).symm
  have hawhole : a.Whole := by rw [ha]; rfl
  have hbwhole : a'.Whole := by rw [hb]; rfl
  rw [Instant.diff_of_whole hbwhole hawhole] at hshift
  have hb' := Instant.shift?_of_whole hbwhole hshift
  have hsecs : a'.secs + (a'.secs - a.secs) = upper.secs + ((k + 1 : Nat) : Int) * (upper.secs - lower.secs) := by
    rw [ha, hb, Int.natCast_succ, Int.add_mul, Int.one_mul]
    simp only
    omega
  have hlower : some a' = (Window.tile lower upper (k + 1)).lower := by rw [Window.tile_lower, hb]
  have hupper : some b' = (Window.tile lower upper (k + 1)).upper := by rw [hb', hsecs, Window.tile]
  rw [hlower, hupper]

/--
What is planned after a tile: the same tile again or to its end, the next one if the checkpoint is clean
and without a token, or a pause.
-/
theorem follows_tile {c : Checkpoint} {k : Nat} (h : p.Follows (some c) d)
    (hc : c.window = Window.tile lower upper k) :
    d = .wait ∨ d.window = Window.tile lower upper k ∨
      (∃ a b, d = .advance a b) ∧ d.window = Window.tile lower upper (k + 1) ∧
        c.isClean = true ∧ c.token = none := by
  cases h with
  | resume _ _ => exact .inr (.inl hc)
  | again _ => exact .inr (.inl hc)
  | advance hclean htoken hwindow _ hshift =>
      have hnext := advance_tile (hc.symm.trans hwindow) hshift rfl
      exact .inr (.inr ⟨⟨_, _, rfl⟩, hnext, hclean, htoken⟩)
  | wait => exact .inl rfl

end Planner

end Harvesting
