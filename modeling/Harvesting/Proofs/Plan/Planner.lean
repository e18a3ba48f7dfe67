import Harvesting.Plan.Planner
import Harvesting.Proofs.Progress.Checkpoint

/-!
# What is planned

* `Instant.diff_of_whole`, `Instant.shift?_of_whole` — windows move by whole seconds;
* `Planner.Follows`, `Planner.follows_plan?` — what can follow a checkpoint, whatever the time;
* `Planner.Follows.whole` — for whole bounds, what follows has whole bounds;
* `Planner.Follows.token` — a cycle starts at a token only if a clean checkpoint left it there;
* `Planner.Follows.unique` — apart from pauses, the checkpoint alone decides.
-/

namespace Harvesting

namespace Instant

variable {a b t : Instant}

theorem diff_of_whole (ha : a.Whole) (hb : b.Whole) : a.diff b = (a.secs - b.secs) * 1000000000 := by
  -- neither instant is within a leap second, so no second is added between them
  simp only [diff, ha.isLeap, hb.isLeap]
  rw [Whole] at ha hb
  simp [ha, hb]

theorem shift_of_whole (h : t.Whole) (n : Int) : t.shift (n * 1000000000) = ⟨t.secs + n, 0⟩ := by
  have hdiv : (n * 1000000000).tdiv 1000000000 = n := Int.mul_tdiv_cancel n (by decide)
  have hmod : (n * 1000000000).tmod 1000000000 = 0 := Int.mul_tmod_left n 1000000000
  rw [shift, h.isLeap, hdiv, hmod]
  rw [Whole] at h
  simp [h]

theorem shift?_of_whole {t' : Instant} {n : Int} (h : t.Whole) (hshift : t.shift? (n * 1000000000) = some t') :
    t' = ⟨t.secs + n, 0⟩ := by
  rw [shift?, shift_of_whole h] at hshift
  split at hshift
  · cases hshift
    rfl
  · cases hshift

end Instant

namespace Decision

/-- A request asks for what the decision names. -/
theorem eq_of_request? {d : Decision} {template q : Request} (h : d.request? template = some q) :
    q = { template with window := d.window, token := d.token } := by
  cases d <;> cases h <;> rfl

theorem request?_of_active {d : Decision} (template : Request) (h : d.isWait = false) :
    d.request? template = some { template with window := d.window, token := d.token } := by
  cases d <;> first | rfl | cases h

end Decision

namespace Planner

/--
What can follow a checkpoint. The time decides only between the next window and a pause; all else is
decided by the checkpoint.
-/
inductive Follows (p : Planner) : Option Checkpoint → Decision → Prop where
  | first : Follows p none (.first p.window)
  | resume {c : Checkpoint} {token : String} :
      c.isClean = true → c.token = some token → Follows p (some c) (.resume token c.window)
  | again {c : Checkpoint} :
      (c.isClean = true → c.token = none ∧ ∀ lower upper, c.window = ⟨some lower, some upper⟩ →
        upper.diff lower ≤ 0) → Follows p (some c) (.again c.window)
  | advance {c : Checkpoint} {lower upper upper' : Instant} :
      c.isClean = true → c.token = none → c.window = ⟨some lower, some upper⟩ → 0 < upper.diff lower →
      upper.shift? (upper.diff lower) = some upper' → Follows p (some c) (.advance upper upper')
  | wait {c : Option Checkpoint} : Follows p c .wait

theorem follows_next? {p : Planner} {c : Checkpoint} {lower upper now : Instant} {d : Decision}
    (hclean : c.isClean = true) (htoken : c.token = none) (hwindow : c.window = ⟨some lower, some upper⟩)
    (h : p.next? lower upper now = some d) : p.Follows (some c) d := by
  rw [next?] at h
  split at h
  · next hwidth =>
    cases h
    rw [← hwindow]
    apply Follows.again
    intro _
    refine ⟨htoken, ?_⟩
    intro lower' upper' hwindow'
    cases hwindow.symm.trans hwindow'
    exact hwidth
  · next hwidth =>
    -- the window moves by its width, if the calendar allows; only then the clock is looked at
    obtain ⟨upper', hupper, h⟩ := Option.bind_eq_some_iff.1 h
    obtain ⟨horizon, -, h⟩ := Option.bind_eq_some_iff.1 h
    split at h
    · cases h
      exact .advance hclean htoken hwindow (by omega) hupper
    · cases h
      exact .wait

theorem follows_plan? {p : Planner} {c : Option Checkpoint} {now : Instant} {d : Decision}
    (h : p.plan? c now = some d) : p.Follows c d := by
  cases c with
  | none =>
      cases h
      exact .first
  | some c =>
      rw [plan?.eq_def] at h
      simp only at h
      split at h
      · next hclean =>
        cases h
        apply Follows.again
        intro hclean'
        exact absurd hclean' hclean
      · next hclean =>
        have hclean' : c.isClean = true := by simpa using hclean
        split at h
        · next htoken =>
          cases h
          exact .resume hclean' htoken
        · next lower upper htoken hlower hupper =>
          exact follows_next? hclean' htoken (by rw [Checkpoint.window, hlower, hupper]) h
        · next htoken hopen =>
          -- a bound is missing, so there is no width to move by
          cases h
          apply Follows.again
          intro _
          refine ⟨htoken, ?_⟩
          intro lower upper hwindow
          have hlower : c.lower = some lower := congrArg Window.lower hwindow
          have hupper : c.upper = some upper := congrArg Window.upper hwindow
          exact absurd hupper (hopen lower upper hlower)

/-- A plan for whole bounds has whole bounds. -/
theorem Follows.whole {p : Planner} {c : Option Checkpoint} {d : Decision} (h : p.Follows c d)
    (hp : p.window.Whole) (hc : ∀ c' ∈ c, c'.window.Whole) : d.window.Whole := by
  cases h with
  | first => exact hp
  | resume _ _ => exact hc _ rfl
  | again _ => exact hc _ rfl
  | advance _ _ hwindow _ hupper =>
      have hbounds := hc _ rfl
      rw [hwindow] at hbounds
      have hlower := hbounds.1 _ rfl
      have hupper' := hbounds.2 _ rfl
      rw [Instant.diff_of_whole hupper' hlower] at hupper
      constructor
      · intro _ h
        cases h
        exact hupper'
      · intro _ h
        cases h
        rw [Instant.shift?_of_whole hupper' hupper]
        rfl
  | wait =>
      constructor
      · intro _ h
        cases h
      · intro _ h
        cases h

/-- A cycle starts at a token only where a clean checkpoint left it. -/
theorem Follows.token {p : Planner} {c : Option Checkpoint} {d : Decision} {t : String}
    (h : p.Follows c d) (ht : d.token = some t) :
    ∃ c', c = some c' ∧ c'.isClean = true ∧ c'.token = some t ∧ d.window = c'.window := by
  cases h with
  | resume hclean htoken =>
      cases ht
      exact ⟨_, rfl, hclean, htoken, rfl⟩
  | first => cases ht
  | again _ => cases ht
  | advance _ _ _ _ _ => cases ht
  | wait => cases ht

/-- Apart from pauses, what follows a checkpoint is decided by it. -/
theorem Follows.unique {p : Planner} {c : Option Checkpoint} {d d' : Decision} (h : p.Follows c d)
    (h' : p.Follows c d') (hd : d ≠ .wait) (hd' : d' ≠ .wait) : d = d' := by
  -- two different rules never apply to one checkpoint: they ask for opposite tokens or widths
  cases h with
  | wait => exact absurd rfl hd
  | first =>
      cases h' with
      | first => rfl
      | wait => exact absurd rfl hd'
  | resume hclean htoken =>
      cases h' with
      | resume hclean' htoken' =>
          cases htoken.symm.trans htoken'
          rfl
      | again hagain => cases htoken.symm.trans (hagain hclean).1
      | advance _ htoken' _ _ _ => cases htoken.symm.trans htoken'
      | wait => exact absurd rfl hd'
  | again hagain =>
      cases h' with
      | resume hclean htoken => cases htoken.symm.trans (hagain hclean).1
      | again _ => rfl
      | advance hclean _ hwindow hwidth _ =>
          have := (hagain hclean).2 _ _ hwindow
          omega
      | wait => exact absurd rfl hd'
  | advance hclean htoken hwindow hwidth hupper =>
      cases h' with
      | resume _ htoken' => cases htoken.symm.trans htoken'
      | again hagain =>
          have := (hagain hclean).2 _ _ hwindow
          omega
      | advance _ _ hwindow' _ hupper' =>
          cases hwindow.symm.trans hwindow'
          cases hupper.symm.trans hupper'
          rfl
      | wait => exact absurd rfl hd'

end Planner

end Harvesting
