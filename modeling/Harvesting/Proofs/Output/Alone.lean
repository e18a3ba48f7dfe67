import Mathlib.Data.List.DropRight
import Harvesting.Proofs.Output.Numbers

/-!
# Sinks with one client

What a single client is told by a flush is about the batches that were sent since it was told the last
time, and all of them were answered by then.

* `Happening.isTold`, `lately` — what happened since the client was told the last time;
* `Since` — the batcher and what happened lately; `Run.since` — it holds on every run;
* `Since.told` — what a flush or a close tells, and the batcher after it;
* `AtRest` — between two calls, with nothing left to send or to tell.
-/

namespace Harvesting

/-- A client is told how its flush or its close went. -/
def Happening.isTold {ι : Type} : Happening ι → Bool
  | .told .. => true
  | _ => false

/-- What happened since someone was told the last time. -/
def lately {ι : Type} (l : List (Happening ι)) : List (Happening ι) := l.rtakeWhile fun h => !h.isTold

/-- The first fault that an answer told. -/
def faultIn {ι : Type} (l : List (Happening ι)) : Option SinkFault :=
  Batcher.firstFault (l.filterMap Happening.verdict?)

namespace Shared

section

variable {ι : Type} {l : List (Happening ι)} {h : Happening ι}

theorem not_told (htold : h.isTold = false) (i : ι) (k : Closing) (r : Except SinkFault Unit) :
    h ≠ .told i k r := by
  rintro rfl
  cases htold

theorem lately_told (htold : h.isTold = true) : lately (l ++ [h]) = [] := by
  rw [lately, List.rtakeWhile_concat_neg]
  simp [htold]

theorem lately_other (htold : h.isTold = false) : lately (l ++ [h]) = lately l ++ [h] := by
  rw [lately, List.rtakeWhile_concat_pos]
  · rfl
  · simp [htold]

theorem faultIn_snoc : faultIn (l ++ [h]) = (faultIn l).or (h.verdict?.bind Batcher.faultOf?) := by
  rw [faultIn, List.filterMap_append, Batcher.firstFault_append]
  congr 1
  cases hverdict : h.verdict? with
  | none => simp [hverdict, Batcher.firstFault]
  | some v => simp [hverdict, Batcher.firstFault]

/-- An answer told a fault. -/
theorem faultIn_ne_none : faultIn l ≠ none ↔ ∃ n f, .landed n (.error f) ∈ l := by
  constructor
  · intro hfault
    obtain ⟨f, hf⟩ := Option.ne_none_iff_exists'.1 hfault
    obtain ⟨v, hv, hvf⟩ := List.exists_of_findSome?_eq_some hf
    obtain ⟨h, hmem, hverdict⟩ := List.mem_filterMap.1 hv
    cases h with
    | landed n v' =>
        cases hverdict
        cases v with
        | ok _ => cases hvf
        | error f => exact ⟨n, f, hmem⟩
    | _ => cases hverdict
  · rintro ⟨n, f, hmem⟩ hnone
    have hv := List.findSome?_eq_none_iff.1 hnone (.error f) (List.mem_filterMap.2 ⟨_, hmem, rfl⟩)
    cases hv

end

/-! ## One client -/

variable {l : List (Happening Unit)} {h : Happening Unit} {w w' : Shared Unit}

/-- What happened lately, and the batcher of a single client after it. -/
structure Since (l : List (Happening Unit)) (w : Shared Unit) : Prop where
  faithful : w.Faithful
  numbered : Numbered l w.batcher
  joined : w.batcher.joined = faultIn l
  closing : (w.errand ()).closing? ≠ none → w.waiting = []
  settling : ∀ k, w.errand () = .settling k → w.batcher.flying = [] ∧ w.batcher.landed = []

/-- Between two calls, nothing is left to send or to tell. -/
structure AtRest (w : Shared Unit) : Prop where
  faithful : w.Faithful
  settled : w.batcher.Settled
  free : w.errand () = .free

theorem AtRest.since (hw : w.AtRest) : Since [] w where
  faithful := hw.faithful
  numbered := numbered_nil hw.settled.flying
  joined := hw.settled.joined
  closing hclosing := absurd (congrArg Errand.closing? hw.free) hclosing
  settling k hsettling := by cases hw.free.symm.trans hsettling

/-- A client that is through can only be told. -/
theorem Step.told_of_settling (hstep : Step w h w') {k : Closing} (hsettling : w.errand () = .settling k)
    (hflying : w.batcher.flying = []) : h.isTold = true := by
  cases hstep with
  | tell _ _ => rfl
  | barClosing _ _ => rfl
  | land _ hf =>
      rw [hflying] at hf
      cases hf
  | look hlooks =>
      rw [hsettling] at hlooks
      cases hlooks
  | hold herrand _ _ | fill herrand _ _ | refuse herrand _ | rest herrand _ | nothing herrand _
  | launch herrand _ | bar herrand _ | through herrand _ =>
      cases hsettling.symm.trans herrand

theorem Since.step (hl : Since l w) (hstep : Step w h w') (htold : h.isTold = false) :
    Since (l ++ [h]) w' where
  faithful := hstep.faithful hl.faithful
  numbered := hstep.moves.numbered hl.numbered
  joined := by
    rw [hstep.moves.joined_eq (not_told htold), hl.joined, faultIn_snoc]
  closing hclosing := by
    rcases hstep.closing hl.faithful hclosing with hclosing | hempty
    · rw [List.eq_nil_iff_forall_not_mem]
      intro e he
      rcases hstep.mem_waiting he with he | ⟨-, hfree⟩
      · rw [hl.closing hclosing] at he
        cases he
      · exact hclosing (congrArg Errand.closing? hfree)
    · exact hempty
  settling k hsettling := by
    rcases hstep.settling hsettling with hbefore | ⟨-, -, hflying, hjoin⟩
    · have htold' := hstep.told_of_settling hbefore (hl.settling k hbefore).1
      cases htold.symm.trans htold'
    · rw [hjoin]
      exact ⟨hflying, rfl⟩

theorem Since.run {m : List (Happening Unit)} (hl : Since l w) (hrun : Run w m w')
    (htold : ∀ h ∈ m, h.isTold = false) : Since (l ++ m) w' := by
  induction hrun with
  | nil => simpa using hl
  | snoc _ hstep ih =>
      rw [← List.append_assoc]
      have hv := ih fun h hmem => htold h (List.mem_append_left _ hmem)
      exact hv.step hstep (htold _ (List.mem_append_right _ (List.mem_singleton_self _)))

/-- What the client is told, and the batcher after it. -/
structure Told (l : List (Happening Unit)) (r : Except SinkFault Unit) (w : Shared Unit) : Prop where
  rest : w.AtRest
  answer : Batcher.faultOf? r = faultIn l
  answered : ∀ n batch lot, .launched () n batch lot ∈ l → ∃! v, .landed n v ∈ l
  sent : ∀ n v, .landed n v ∈ l → ∃ batch lot, .launched () n batch lot ∈ l

theorem Told.faulty {r : Except SinkFault Unit} (h : Told l r w) : (∃ f, r = .error f) ↔
    ∃ n batch lot f, .launched () n batch lot ∈ l ∧ .landed n (.error f) ∈ l := by
  have hfaulty : (∃ f, r = .error f) ↔ faultIn l ≠ none := by
    rw [← h.answer]
    cases r <;> simp [Batcher.faultOf?]
  rw [hfaulty, faultIn_ne_none]
  constructor
  · rintro ⟨n, f, hlanded⟩
    obtain ⟨batch, lot, hlaunched⟩ := h.sent n _ hlanded
    exact ⟨n, batch, lot, f, hlaunched, hlanded⟩
  · rintro ⟨n, -, -, f, -, hlanded⟩
    exact ⟨n, f, hlanded⟩

theorem Since.told (hl : Since l w) {k : Closing} {r : Except SinkFault Unit}
    (hstep : Step w (.told () k r) w') (hopen : w.batcher.closed = false) : Told l r w' := by
  have hfaithful := hstep.faithful hl.faithful
  cases hstep with
  | barClosing _ hclosed => cases hopen.symm.trans hclosed
  | @tell _ _ _ b hsettling hfault =>
      obtain ⟨hflying, hlanded⟩ := hl.settling k hsettling
      have hbuffer : w.batcher.buffer = [] := by
        rw [← hl.faithful.buffer, hl.closing (hsettling ▸ nofun), List.map_nil]
      -- all answers were looked at, so the fault that is kept is the first one
      have hfirst : w.batcher.fault = faultIn l := by
        rw [← hl.joined, Batcher.joined, hlanded]
        exact (Option.or_none ..).symm
      have hsettled : b.Settled ∧ Batcher.faultOf? r = w.batcher.fault := by
        rcases r with f | ⟨⟩
        · obtain ⟨hkept, rfl⟩ := Batcher.takeFault_eq_error hfault
          exact ⟨⟨hbuffer, hflying, hlanded, rfl⟩, hkept.symm⟩
        · obtain ⟨hkept, rfl⟩ := Batcher.takeFault_eq_ok hfault
          exact ⟨⟨hbuffer, hflying, hlanded, hkept⟩, hkept.symm⟩
      obtain ⟨hb, hr⟩ := hsettled
      refine ⟨⟨hfaithful, ?_, errand_turn_self⟩, hr.trans hfirst, ?_, ?_⟩
      · cases k with
        | flush => exact hb
        | close => exact ⟨hb.buffer, hb.flying, hb.landed, hb.fault⟩
      · intro n batch lot hlaunched
        rcases hl.numbered.due _ _ _ _ hlaunched with ⟨f, hf, -⟩ | ⟨v, hv⟩
        · rw [hflying] at hf
          cases hf
        · exact ⟨v, hv, fun v' hv' => hl.numbered.once n v v' hv hv'⟩
      · intro n v hlanded
        obtain ⟨⟨⟨⟩, batch, lot, hlaunched⟩, -⟩ := hl.numbered.landed n v hlanded
        exact ⟨batch, lot, hlaunched⟩

theorem Run.since (hrun : Run w l w') (hw : w.AtRest) (hopen : w'.batcher.closed = false) :
    Since (lately l) w' := by
  induction hrun with
  | nil => exact hw.since
  | @snoc v v' l h _ hstep ih =>
      have hv := hstep.isOpen hopen
      cases htold : h.isTold with
      | false =>
          rw [lately_other htold]
          exact (ih hv).step hstep htold
      | true =>
          rw [lately_told htold]
          cases h with
          | told i k r => exact ((ih hv).told hstep hv).rest.since
          | _ => cases htold

end Shared

end Harvesting
