import Harvesting.Cycle.Runner

/-!
# What a source asks for

A program asks for what its nodes name, whatever it is answered. The runner of a source asks the store for
the documents of that source only.

* `Program.Asks` — every effect that the program can ask for is of a kind;
* `Effect.Concerns` — effects that name no other source than one;
* `Cycle.asks_plan`, `Cycle.asks_page`, `Runner.asks_course` — the stages of a source.
-/

namespace Harvesting

/-- The effect does not ask the store for another source. -/
def Effect.Concerns (key : String) : Effect → Prop
  | .load k | .save k _ | .loadTally k | .saveTally k _ => k = key
  | _ => True

namespace Program

variable {α β : Type} {P : Effect → Prop}

/-- Every effect that the program can ask for is one of `P`. -/
def Asks (P : Effect → Prop) : Program α → Prop
  | done _ => True
  | ask e next => P e ∧ ∀ r, Asks P (next r)

theorem asks_pure (a : α) : Asks P (pure a) := trivial

theorem asks_perform {e : Effect} {f : e.Reply → Program β} (he : P e) (hf : ∀ r, Asks P (f r)) :
    Asks P (perform e >>= f) := ⟨he, hf⟩

theorem Asks.bind {p : Program α} {f : α → Program β} (h : Asks P p) (hf : ∀ a, Asks P (f a)) :
    Asks P (p >>= f) := by
  induction p with
  | done a => exact hf a
  | ask e next ih => exact ⟨h.1, fun r => ih r (h.2 r)⟩

end Program

open Program (Asks asks_pure asks_perform)

/-! ## Cycles -/

namespace Cycle

variable (s : CycleSettings)

theorem asks_begin : (begin s).Asks (Effect.Concerns s.key) := by
  refine asks_perform (by exact rfl) ?_
  intro kept
  apply asks_perform trivial
  intro now
  exact asks_perform (by exact rfl) fun _ => asks_pure _

theorem asks_finish (tally : Tally) (report : Report) : (finish s tally report).Asks (Effect.Concerns s.key) := by
  apply asks_perform trivial
  intro now
  exact asks_perform (by exact rfl) fun _ => asks_pure _

theorem asks_plan (report : Report) : (plan s report).Asks (Effect.Concerns s.key) := by
  apply asks_perform trivial
  intro cancelled
  split
  · exact asks_pure _
  refine asks_perform (by exact rfl) ?_
  intro stored
  split
  · apply asks_perform trivial
    intro waited
    split <;> exact asks_pure _
  · apply asks_perform trivial
    intro now
    split
    · exact asks_pure _
    split
    · exact asks_pure _
    · exact (asks_begin s).bind fun _ => asks_pure _

theorem asks_deliver (key : String) (ds : List Document) (report : Report) :
    (deliver ds report).Asks (Effect.Concerns key) := by
  induction ds generalizing report with
  | nil => exact asks_pure _
  | cons d ds ih =>
      rw [deliver]
      apply asks_perform trivial
      intro taken
      split
      · exact ih _
      · exact asks_pure _

theorem asks_route (key : String) (documents : Record → Except RecordFault (List Document)) (rs : List Record)
    (report : Report) : (route documents rs report).Asks (Effect.Concerns key) := by
  induction rs generalizing report with
  | nil => exact asks_pure _
  | cons r rs ih =>
      rw [route]
      simp only
      split
      · exact ih _
      · refine (asks_deliver key _ _).bind ?_
        intro delivered
        split
        · exact ih _
        · exact asks_pure _

theorem asks_ask (request : Request) (report : Report) : (ask s request report).Asks (Effect.Concerns s.key) :=
  asks_perform trivial fun _ => asks_pure _

theorem asks_settle (answer : Except SourceFault Page) (report : Report) :
    (settle s answer report).Asks (Effect.Concerns s.key) := by
  rw [settle.eq_def]
  split
  · exact asks_pure _
  split
  · exact asks_pure _
  · exact asks_pure _
  · refine (asks_route s.key _ _ _).bind ?_
    intro routed
    split <;> exact asks_pure _

theorem asks_attempt (request : Request) (report : Report) :
    (attempt s request report).Asks (Effect.Concerns s.key) := by
  refine (asks_ask s request report).bind ?_
  intro asked
  split
  simp only
  split
  · apply asks_perform trivial
    intro waited
    split
    · refine (asks_ask s request _).bind ?_
      intro asked
      exact (asks_settle s _ _).bind fun _ => asks_pure _
    · exact asks_pure _
  · exact (asks_settle s _ _).bind fun _ => asks_pure _

theorem asks_persist (request : Request) (a : Attempt) : (persist s request a).Asks (Effect.Concerns s.key) := by
  apply asks_perform trivial
  intro flushed
  exact asks_perform (by exact rfl) fun _ => asks_pure _

theorem asks_page (tally : Tally) (request : Request) (report : Report) :
    (page s tally request report).Asks (Effect.Concerns s.key) := by
  apply asks_perform trivial
  intro cancelled
  split
  · exact asks_finish s tally _
  refine (asks_attempt s request report).bind ?_
  intro attempted
  split
  · exact asks_finish s tally _
  · refine (asks_persist s request _).bind ?_
    intro a
    simp only
    split
    · exact asks_finish s tally _
    · exact asks_pure _
    · exact asks_finish s tally _

theorem asks_course {stage : Cycle × Report} {p : Program (Cycle × Report)} (h : course s stage = some p) :
    p.Asks (Effect.Concerns s.key) := by
  obtain ⟨cycle, report⟩ := stage
  cases cycle with
  | planning =>
      cases h
      exact asks_plan s report
  | paging tally request =>
      cases h
      exact asks_page s tally request report
  | ended => cases h
  | broken => cases h

end Cycle

/-! ## Runners -/

namespace Runner

variable (s : RunnerSettings)

theorem asks_rest (key : String) (waited : Bool) : (rest s waited).Asks (Effect.Concerns key) := by
  rw [rest]
  split
  · apply asks_perform trivial
    intro cancelled
    split <;> exact asks_pure _
  · apply asks_perform trivial
    intro now
    split
    · exact asks_pure _
    · apply asks_perform trivial
      intro waited
      split <;> exact asks_pure _

theorem asks_next (key : String) (r : Report) : (next s r).Asks (Effect.Concerns key) := by
  rw [next]
  split
  · exact asks_pure _
  · apply asks_perform trivial
    intro cancelled
    split
    · exact asks_pure _
    · exact asks_rest s key _

/-- Every stage of a runner asks the store for its own source only. -/
theorem asks_course {stage : Runner × Summary} {p : Program (Runner × Summary)} (h : course s stage = some p) :
    p.Asks (Effect.Concerns s.cycle.key) := by
  obtain ⟨runner, sum⟩ := stage
  cases runner with
  | opening =>
      cases h
      split
      · exact asks_pure _
      · exact (asks_rest s _ _).bind fun _ => asks_pure _
  | cycling stage =>
      obtain ⟨cycle, report⟩ := stage
      rw [course.eq_def] at h
      simp only at h
      split at h
      · next hstage =>
        cases h
        exact (Cycle.asks_course s.cycle hstage).bind fun _ => asks_pure _
      · cases h
        exact asks_pure _
      · cases h
        exact (asks_next s _ report).bind fun _ => asks_pure _
  | closing =>
      cases h
      exact asks_perform trivial fun _ => asks_pure _
  | stopped => cases h
  | broken => cases h

end Runner

end Harvesting
