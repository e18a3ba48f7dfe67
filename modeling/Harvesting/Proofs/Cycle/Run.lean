import Harvesting.Cycle.Program

/-!
# Runs of programs

A program asks and its surroundings answer. Which answers are possible is a relation `R`: the state of
the surroundings before an effect, the effect, its reply, and the state after it. Nothing else is
assumed, so a claim about runs holds for every order of faults.

* `Program.Ends` — a run of a program to its end; `Course.Leads` — a run through stages;
* `Program.Safe` — a property `I` before every question and `Q` at the end, on every run;
  `Program.safe_bind`, `Safe.mono` compose it, `Safe.of_ends` reads it off;
* `Course.Reaches` — a program interrupted at any point: what remains of the stage, and the state. A
  course that has ended starts again, and a crash starts it again from anywhere;
* `Course.Reaches.safe` — an invariant of the stages holds wherever a run can be interrupted.
-/

namespace Harvesting

/-- The answers that surroundings may give. -/
abbrev Answers (ω : Type) := ω → (e : Effect) → e.Reply → ω → Prop

variable {ω α β σ : Type} {R : Answers ω} {I : ω → Prop}

/-! ## Runs to the end -/

/-- A run of a program from one state of the surroundings to its result and another state. -/
inductive Program.Ends (R : Answers ω) : Program α → ω → α → ω → Prop where
  | done (a : α) (w : ω) : Ends R (.done a) w a w
  | ask {e : Effect} {next : e.Reply → Program α} {w w' w'' : ω} {r : e.Reply} {a : α} :
      R w e r w' → Ends R (next r) w' a w'' → Ends R (.ask e next) w a w''

/-- A run through stages, from one stage to another. -/
inductive Course.Leads (R : Answers ω) (c : Course σ) : σ → ω → σ → ω → Prop where
  | refl (s : σ) (w : ω) : Leads R c s w s w
  | stage {s s' s'' : σ} {w w' w'' : ω} {p : Program σ} :
      c s = some p → p.Ends R w s' w' → Leads R c s' w' s'' w'' → Leads R c s w s'' w''

/-- The answers up to the moment at which `P` comes to hold. -/
def Until (P : ω → Prop) (R : Answers ω) : Answers ω := fun w e r w' => ¬ P w ∧ R w e r w'

/-! ## What holds on every run -/

namespace Program

/-- `I` holds before every question of the program, and `Q` at its end, whatever the answers. -/
def Safe (R : Answers ω) (I : ω → Prop) (Q : α → ω → Prop) : Program α → ω → Prop
  | done a, w => Q a w
  | ask e next, w => I w ∧ ∀ r w', R w e r w' → Safe R I Q (next r) w'

@[simp] theorem safe_pure {Q : α → ω → Prop} {a : α} {w : ω} :
    Safe R I Q (pure a) w ↔ Q a w := Iff.rfl

theorem safe_perform {e : Effect} {Q : β → ω → Prop} {f : e.Reply → Program β} {w : ω} :
    Safe R I Q (perform e >>= f) w ↔ I w ∧ ∀ r w', R w e r w' → Safe R I Q (f r) w' := Iff.rfl

theorem safe_bind {p : Program α} {f : α → Program β} {Q : β → ω → Prop} {w : ω} :
    Safe R I Q (p >>= f) w ↔ Safe R I (fun a w => Safe R I Q (f a) w) p w := by
  induction p generalizing w with
  | done a => exact Iff.rfl
  | ask e next ih =>
      -- the first question stays, and the induction is about what comes after each reply
      show (I w ∧ ∀ r w', R w e r w' → Safe R I Q (next r >>= f) w') ↔ _
      simp only [ih]
      exact Iff.rfl

theorem Safe.mono {p : Program α} {Q Q' : α → ω → Prop} {w : ω} (h : Safe R I Q p w)
    (hQ : ∀ a w, Q a w → Q' a w) : Safe R I Q' p w := by
  induction p generalizing w with
  | done a => exact hQ a w h
  | ask e next ih =>
      refine ⟨h.1, ?_⟩
      intro r w' hr
      exact ih r (h.2 r w' hr)

/-- Goes on with the result of a program of which something is known. -/
theorem Safe.bind {p : Program α} {f : α → Program β} {P : α → ω → Prop} {Q : β → ω → Prop} {w : ω}
    (h : Safe R I P p w) (hf : ∀ a w, P a w → Safe R I Q (f a) w) : Safe R I Q (p >>= f) w :=
  safe_bind.2 (h.mono hf)

theorem Safe.of_ends {p : Program α} {Q : α → ω → Prop} {w w' : ω} {a : α} (hend : p.Ends R w a w')
    (h : Safe R I Q p w) : Q a w' := by
  induction hend with
  | done a w => exact h
  | ask hr _ ih => exact ih (h.2 _ _ hr)

/-- A run as it is seen through a function of the surroundings. -/
theorem Ends.map {ω' : Type} {R' : Answers ω'} (f : ω → ω')
    (hR : ∀ w e r w', R w e r w' → R' (f w) e r (f w')) {p : Program α} {w w' : ω} {a : α}
    (h : p.Ends R w a w') : p.Ends R' (f w) a (f w') := by
  induction h with
  | done a w => exact .done a (f w)
  | ask hr _ ih => exact .ask (hR _ _ _ _ hr) ih

/-- Where a function answers, there is a run to the result. -/
theorem ends_run {answer : ω → (e : Effect) → e.Reply × ω}
    (hR : ∀ w e, R w e (answer w e).1 (answer w e).2) (p : Program α) (w : ω) :
    p.Ends R w (p.run answer w).1 (p.run answer w).2 := by
  induction p generalizing w with
  | done a => exact .done a w
  | ask e next ih => exact .ask (hR w e) (ih _ _)

theorem Safe.run {answer : ω → (e : Effect) → e.Reply × ω}
    (hR : ∀ w e, R w e (answer w e).1 (answer w e).2) {p : Program α} {Q : α → ω → Prop} {w : ω}
    (h : Safe R I Q p w) : Q (p.run answer w).1 (p.run answer w).2 :=
  h.of_ends (ends_run hR p w)

end Program

namespace Course

variable {c : Course σ}

theorem follow_of_none (answer : ω → (e : Effect) → e.Reply × ω) {s : σ} (h : c s = none) (fuel : Nat)
    (w : ω) : c.follow answer fuel s w = (s, w) := by
  cases fuel with
  | zero => rfl
  | succ fuel => rw [follow, h]

/-- A property of the stages that every run of a stage keeps. -/
theorem Leads.keeps {Inv : σ → ω → Prop} {s s' : σ} {w w' : ω} (h : c.Leads R s w s' w')
    (hstage : ∀ s w p s' w', Inv s w → c s = some p → p.Ends R w s' w' → Inv s' w') (hs : Inv s w) :
    Inv s' w' := by
  induction h with
  | refl s w => exact hs
  | stage hp hend _ ih => exact ih (hstage _ _ _ _ _ hs hp hend)

/-- A property of the stages holds at the end of every run that starts with it. -/
theorem Leads.safe {Inv : σ → ω → Prop} {s s' : σ} {w w' : ω} (h : c.Leads R s w s' w')
    (hstage : ∀ s w p, Inv s w → c s = some p → p.Safe R (fun _ => True) Inv w) (hs : Inv s w) :
    Inv s' w' := by
  refine h.keeps ?_ hs
  intro s w p s' w' hinv hp hend
  exact (hstage s w p hinv hp).of_ends hend

/-- A run as it is seen through a function of the surroundings. -/
theorem Leads.map {ω' : Type} {R' : Answers ω'} (f : ω → ω')
    (hR : ∀ w e r w', R w e r w' → R' (f w) e r (f w')) {s s' : σ} {w w' : ω} (h : c.Leads R s w s' w') :
    c.Leads R' s (f w) s' (f w') := by
  induction h with
  | refl s w => exact .refl s (f w)
  | stage hp hend _ ih => exact .stage hp (hend.map f hR) ih

/-- Where a function answers, following a course is a run through stages. -/
theorem leads_follow {answer : ω → (e : Effect) → e.Reply × ω}
    (hR : ∀ w e, R w e (answer w e).1 (answer w e).2) (fuel : Nat) (s : σ) (w : ω) :
    c.Leads R s w (c.follow answer fuel s w).1 (c.follow answer fuel s w).2 := by
  induction fuel generalizing s w with
  | zero => exact .refl s w
  | succ fuel ih =>
      rw [follow]
      split
      · exact .refl s w
      · next p hp => exact .stage hp (Program.ends_run hR p w) (ih _ _)

/-! ## Runs that are interrupted -/

/--
What remains of the present stage and the state of the surroundings, wherever a run can be interrupted.
`crash` is what a crash does to the surroundings.
-/
inductive Reaches (R : Answers ω) (crash : ω → ω → Prop) (c : Course σ) (first : σ) (w₀ : ω) :
    Program σ → ω → Prop where
  | start : Reaches R crash c first w₀ (.done first) w₀
  | answer {e : Effect} {next : e.Reply → Program σ} {w w' : ω} {r : e.Reply} :
      Reaches R crash c first w₀ (.ask e next) w → R w e r w' → Reaches R crash c first w₀ (next r) w'
  | stage {s : σ} {p : Program σ} {w : ω} :
      Reaches R crash c first w₀ (.done s) w → c s = some p → Reaches R crash c first w₀ p w
  | again {s : σ} {w : ω} :
      Reaches R crash c first w₀ (.done s) w → c s = none → Reaches R crash c first w₀ (.done first) w
  | crash {p : Program σ} {w w' : ω} :
      Reaches R crash c first w₀ p w → crash w w' → Reaches R crash c first w₀ (.done first) w'

variable {crash : ω → ω → Prop} {first : σ} {w₀ : ω}

section

variable {answer : ω → (e : Effect) → e.Reply × ω}

theorem Reaches.run (hR : ∀ w e, R w e (answer w e).1 (answer w e).2) {p : Program σ} {w : ω}
    (h : Reaches R crash c first w₀ p w) :
    Reaches R crash c first w₀ (.done (p.run answer w).1) (p.run answer w).2 := by
  induction p generalizing w with
  | done s => exact h
  | ask e next ih => exact ih _ (h.answer (hR w e))

/-- Where a function answers, a course is followed through states that it reaches. -/
theorem Reaches.follow (hR : ∀ w e, R w e (answer w e).1 (answer w e).2) (fuel : Nat) {s : σ} {w : ω}
    (h : Reaches R crash c first w₀ (.done s) w) :
    Reaches R crash c first w₀ (.done (c.follow answer fuel s w).1) (c.follow answer fuel s w).2 := by
  induction fuel generalizing s w with
  | zero => exact h
  | succ fuel ih =>
      rw [Course.follow]
      split
      · exact h
      · next p hp => exact ih ((h.stage hp).run hR)

end

/--
An invariant of the stages. `Inv` holds before every stage and implies `I`, a stage keeps `I` before
every question, and `I` alone survives the end of a course and a crash.
-/
structure Invariant (R : Answers ω) (crash : ω → ω → Prop) (c : Course σ) (first : σ) (I : ω → Prop)
    (Inv : σ → ω → Prop) : Prop where
  sound : ∀ s w, Inv s w → I w
  stage : ∀ s w p, Inv s w → c s = some p → p.Safe R I Inv w
  first : ∀ w, I w → Inv first w
  crash : ∀ w w', I w → crash w w' → I w'

theorem Reaches.safe {Inv : σ → ω → Prop} {p : Program σ} {w : ω}
    (h : c.Reaches R crash first w₀ p w) (hInv : c.Invariant R crash first I Inv) (hw₀ : I w₀) :
    p.Safe R I Inv w := by
  have hI {p : Program σ} {w : ω} (hp : p.Safe R I Inv w) : I w := by
    cases p with
    | done s => exact hInv.sound s w hp
    | ask e next => exact hp.1
  -- what remains of a stage is safe; `I` alone is left where the run starts again
  induction h with
  | start => exact hInv.first _ hw₀
  | answer _ hr ih => exact ih.2 _ _ hr
  | stage _ hp ih => exact hInv.stage _ _ _ ih hp
  | again _ _ ih => exact hInv.first _ (hI ih)
  | crash _ hc ih => exact hInv.first _ (hInv.crash _ _ (hI ih) hc)

/-- A run that is not watched up to a moment passes through the moment, or never comes to it. -/
theorem Reaches.until (P : ω → Prop) {p : Program σ} {w : ω} (h : c.Reaches R crash first w₀ p w) :
    c.Reaches (Until P R) crash first w₀ p w ∨ ∃ p' w', c.Reaches (Until P R) crash first w₀ p' w' ∧ P w' := by
  induction h with
  | start => exact .inl .start
  | @answer e next w w' r _ hr ih =>
      rcases ih with h | h
      · -- the moment can only be missed by the answer that follows it
        by_cases hP : P w
        · exact .inr ⟨_, w, h, hP⟩
        · exact .inl (h.answer ⟨hP, hr⟩)
      · exact .inr h
  | stage _ hp ih => exact ih.imp_left fun h => h.stage hp
  | again _ hs ih => exact ih.imp_left fun h => h.again hs
  | crash _ hc ih => exact ih.imp_left fun h => h.crash hc

/-- Wherever a run is interrupted, the invariant holds. -/
theorem Reaches.invariant {Inv : σ → ω → Prop} {p : Program σ} {w : ω}
    (h : c.Reaches R crash first w₀ p w) (hInv : c.Invariant R crash first I Inv) (hw₀ : I w₀) : I w := by
  have hp := h.safe hInv hw₀
  cases p with
  | done s => exact hInv.sound s w hp
  | ask e next => exact hp.1

end Course

end Harvesting
