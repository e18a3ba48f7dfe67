import Harvesting.Proofs.Cycle.Rules
import Harvesting.Proofs.Output.Calls

/-!
# Faults of the sink in a cycle

A cycle is the only client of a batcher; the rest of its surroundings is arbitrary. Each fault is told by
the flush after the batch that failed, and nothing is left for a close after the cycle.

* `Serving` — surroundings whose sink is a batcher;
* `safe_stage_serving` — a stage that begins with a batcher at rest ends with one;
* `faults_reported` — the result.
-/

namespace Harvesting

open Shared

/-- Surroundings whose sink is a batcher. Answers to batches may come whenever something is asked. -/
def Serving : Answers (Shared Unit)
  | w, .index d, r, w' => ∃ l, w.Indexes d l r w'
  | w, .flush, r, w' => ∃ l, w.Closes .flush l r w'
  | w, .close, r, w' => ∃ l, w.Closes .close l r w'
  | w, _, _, w' => ∃ l, Run w l w' ∧ ∀ h ∈ l, ∃ n v, h = .landed n v

namespace Cycle

variable {s : CycleSettings} {w w' : Shared Unit}

/-- The batcher is open and between two calls, and nothing is left to send or to tell. -/
structure Resting (w : Shared Unit) : Prop where
  rest : w.AtRest
  isOpen : w.batcher.closed = false

/-- The batcher is open and between two calls. -/
structure Filling (w : Shared Unit) : Prop where
  since : ∃ l, Since l w
  free : w.errand () = .free
  isOpen : w.batcher.closed = false

theorem Resting.filling (hw : Resting w) : Filling w := ⟨⟨[], hw.rest.since⟩, hw.rest.free, hw.isOpen⟩

/-- Without a batch on its way, no answer comes. -/
theorem Resting.nil_of_landed (hw : Resting w) {l : List (Happening Unit)} (hrun : Run w l w')
    (hl : ∀ h ∈ l, ∃ n v, h = .landed n v) : l = [] := by
  cases l with
  | nil => rfl
  | cons h l =>
      obtain ⟨n, v, rfl⟩ := hl h List.mem_cons_self
      obtain ⟨v, hstep, -⟩ := hrun.uncons
      cases hstep with
      | land _ hf =>
          rw [hw.rest.settled.flying] at hf
          cases hf

theorem Resting.eq_of_landed (hw : Resting w) {l : List (Happening Unit)} (hrun : Run w l w')
    (hl : ∀ h ∈ l, ∃ n v, h = .landed n v) : w' = w := by
  cases hw.nil_of_landed hrun hl
  exact hrun.eq_of_nil

/-- Only calls of the sink move a batcher at rest. -/
theorem Resting.elsewhere {e : Effect} {r : e.Reply} (hw : Resting w) (hr : Serving w e r w')
    (he : e.isQuiet = true ∨ (∃ q limit, e = .request q limit) ∨ ∃ key c, e = .save key c) : Resting w' := by
  suffices hsame : w' = w from hsame ▸ hw
  cases e with
  | index _ | flush | close => rcases he with he | ⟨_, _, he⟩ | ⟨_, _, he⟩ <;> cases he
  | _ =>
      obtain ⟨l, hrun, hl⟩ := hr
      exact hw.eq_of_landed hrun hl

theorem quiet_resting : Quiet Serving Resting := fun _ _ _ _ he hw hr => hw.elsewhere hr (.inl he)

theorem Filling.index (hw : Filling w) {d : Document} {r : Except SinkFault Unit}
    (hr : Serving w (.index d) r w') : Filling w' := by
  obtain ⟨l, hcall⟩ := hr
  obtain ⟨hrun, htold, hfree⟩ := hcall.run
  obtain ⟨l₀, hsince⟩ := hw.since
  exact ⟨⟨_, hsince.run hrun htold⟩, hfree, (hrun.closed_eq_of htold).trans hw.isOpen⟩

/-- After a flush, nothing is left to send or to tell. -/
theorem Filling.flush (hw : Filling w) {r : Except SinkFault Unit} (hr : Serving w .flush r w') : Resting w' := by
  obtain ⟨l, hcall⟩ := hr
  obtain ⟨l₀, hsince⟩ := hw.since
  obtain ⟨m, -, -, -, htold⟩ := hcall.told_of hsince hw.isOpen
  exact ⟨htold.rest, hcall.isOpen hw.isOpen⟩

/-- A stage that begins with a batcher at rest ends with one. -/
theorem safe_stage_serving {st : Cycle × Report} {p : Program (Cycle × Report)} (hw : Resting w)
    (hp : course s st = some p) : p.Safe Serving (fun _ => True) (fun _ => Resting) w := by
  refine safe_stage (F := Filling) quiet_resting (fun _ hw => hw.filling) ?_ (fun _ _ _ _ hw hr => hw.index hr) ?_ hp hw
  · intro w q limit r w' hw hr
    exact hw.elsewhere hr (.inr (.inl ⟨_, _, rfl⟩))
  · intro w request a flushed w₁ saved w₂ hw h₁ h₂
    exact (hw.flush h₁).elsewhere h₂ (.inr (.inr ⟨_, _, rfl⟩))

/-- A cycle that begins with a batcher at rest ends with one. -/
theorem resting_of_leads {st st' : Cycle × Report} (hw : Resting w)
    (hleads : (course s).Leads Serving st w st' w') : Resting w' := by
  exact hleads.safe (fun _ _ _ hw hp => safe_stage_serving hw hp) hw

theorem resting_start {settings : SinkSettings} {processors : Nat} {b : Batcher}
    (hb : Batcher.of settings processors = .ok b) : Resting (Shared.start b) where
  rest := ⟨faithful_start (Batcher.of_eq_ok hb).1, (Batcher.of_eq_ok hb).1, rfl⟩
  isOpen := (Batcher.of_eq_ok hb).2

/--
The faults of a batcher with one client. As long as it is open it takes every document, and a flush comes to
its end whatever the answers. A flush tells a fault just when a batch failed that was sent since the client
was told the last time, and then the fault that came first; every such batch was answered, and nothing is
left to send or to tell. So a close after a cycle sends nothing and tells no fault.
-/
theorem faults_reported {settings : SinkSettings} {processors : Nat} {b : Batcher}
    (hb : Batcher.of settings processors = .ok b) :
    (∀ l w, Run (Shared.start b) l w → w.batcher.closed = false → .refused () ∉ l ∧
      (∀ d m r w', w.Indexes d m r w' → r = .ok ()) ∧
      (w.errand () = .free → (∀ d, ∃ m w', w.Indexes d m (.ok ()) w') ∧
        ∀ reply : Nat → Except SinkFault Unit,
          ∃ m r w', w.Closes .flush m r w' ∧ ∀ n v, .landed n v ∈ m → v = reply n)) ∧
    (∀ l r w, Run (Shared.start b) (l ++ [.told () .flush r]) w → w.batcher.closed = false →
      ((∃ f, r = .error f) ↔
        ∃ n batch lot f, .launched () n batch lot ∈ lately l ∧ .landed n (.error f) ∈ lately l) ∧
      Batcher.faultOf? r = faultIn (lately l) ∧
      (∀ n batch lot, .launched () n batch lot ∈ lately l → ∃! v, .landed n v ∈ lately l) ∧
      w.AtRest) ∧
    Resting (Shared.start b) ∧
    ∀ (s : CycleSettings) st w st' w', Resting w → (course s).Leads Serving st w st' w' →
      Resting w' ∧ (∃ l w'', w'.Closes .close l (.ok ()) w'') ∧
        ∀ l r w'', w'.Closes .close l r w'' → r = .ok () ∧ ∀ n batch lot, .launched () n batch lot ∉ l := by
  have hstart := resting_start hb
  refine ⟨?_, ?_, hstart, ?_⟩
  · intro l w hrun hopen
    refine ⟨hrun.not_refused hopen, fun _ _ _ _ hcall => hcall.eq_ok hopen, ?_⟩
    intro hfree
    exact ⟨fun d => exists_indexes d hfree hopen, fun reply => exists_closes .flush reply hfree hopen⟩
  · intro l r w hrun hopen
    obtain ⟨v, hv, htell⟩ := hrun.last
    have hbefore := htell.isOpen hopen
    have htold := (hv.since hstart.rest hbefore).told htell hbefore
    exact ⟨htold.faulty, htold.answer, htold.answered, htold.rest⟩
  · intro s st w st' w' hw hleads
    have hw' := resting_of_leads hw hleads
    obtain ⟨l, r, w'', hcall, -⟩ := exists_closes .close (fun _ => .ok ()) hw'.rest.free hw'.isOpen
    obtain ⟨rfl, -⟩ := hcall.at_rest hw'.rest hw'.isOpen
    exact ⟨hw', ⟨l, w'', hcall⟩, fun _ _ _ hcall => hcall.at_rest hw'.rest hw'.isOpen⟩

theorem faults_reported_sample :
    ∃ (b : Batcher) (l : List (Happening Unit)) (f : SinkFault) (w : Shared Unit),
      Batcher.of (inBatches 1) 1 = .ok b ∧ Run (Shared.start b) (l ++ [.told () .flush (.error f)]) w ∧
        w.batcher.closed = false ∧ faultIn (lately l) = some f ∧ w.AtRest := by
  obtain ⟨endpoint, hb⟩ := of_inBatches 1
  let f : SinkFault := .status 500 "x"
  let l : List (Happening Unit) :=
    [.handed ⟨(), 0, sampleDocument⟩, .launched () 0 [sampleDocument] [⟨(), 0, sampleDocument⟩],
      .landed 0 (.error f), .called () .flush, .through ()]
  have hlaunched := (handed_sample endpoint ()).snoc (.launch (i := ()) rfl rfl)
  have hlanded := hlaunched.snoc (.land (.error f) (List.mem_singleton_self _))
  have hcalled := hlanded.snoc (.nothing (i := ()) (k := .flush) rfl rfl)
  have hthrough := hcalled.snoc (.through (i := ()) rfl rfl)
  have hrun : Run (Shared.start (sampleBatcher endpoint 1)) (l ++ [.told () .flush (.error f)]) _ :=
    hthrough.snoc (.tell (i := ()) rfl rfl)
  obtain ⟨-, hanswer, -, hrest⟩ := (faults_reported hb).2.1 _ _ _ hrun rfl
  exact ⟨_, l, f, _, hb, hrun, rfl, hanswer.symm, hrest⟩

end Cycle

end Harvesting
