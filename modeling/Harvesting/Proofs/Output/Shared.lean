import Mathlib.Data.List.Induction
import Mathlib.Logic.Function.Basic
import Harvesting.Proofs.Output.Batcher

/-!
# Sinks that are shared

Clients hand documents to one batcher. Each of them makes one call after the other, and the calls of
different clients take their turns between any two operations on the batcher. Answers to batches come at
any time and in any order.

A lane can be free again before the answer of its batch can be seen, so nothing is said here of how many
batches are on their way: what follows holds for any number of lanes.

* `Entry`, `Errand`, `Shared` — documents with those who handed them over, what a client is about, and
  the batcher with its clients;
* `Happening`, `Shared.Step` — what can happen next; `Moves` — what of it changes the batcher;
* `Shared.Run` — what happened, in order; `Run.append`, `Run.split` compose it and take it apart;
* `Shared.Faithful` — the entries are those of the documents in the buffer and in batches to be sent;
* `Step.closing`, `Step.settling` — what a client that flushes or closes has behind it.
-/

namespace Harvesting

/-- A document that was handed over. -/
structure Entry (ι : Type) where
  client : ι
  /-- The documents that were handed over before it. -/
  number : Nat
  document : Document

/-- The calls that wait for all answers. -/
inductive Closing where
  | flush
  | close
  deriving DecidableEq

/-- The batcher once the closing was told. -/
def Closing.after : Closing → Batcher → Batcher
  | .flush, b => b
  | .close, b => b.shut

/-- What a client is about. -/
inductive Errand (ι : Type) where
  | free
  /-- It has a batch to send, which is made of a lot of documents. After it comes the closing, if one was called. -/
  | sending (batch : List Document) (lot : List (Entry ι)) (closing : Option Closing)
  | awaiting (closing : Closing)
  /-- All answers came. -/
  | settling (closing : Closing)

/-- The closing that was called. -/
def Errand.closing? {ι : Type} : Errand ι → Option Closing
  | .free => none
  | .sending _ _ closing => closing
  | .awaiting closing | .settling closing => some closing

/-- The client may look at answers that came. -/
def Errand.looks {ι : Type} : Errand ι → Prop
  | .sending .. | .awaiting _ => True
  | .free | .settling _ => False

/-- A batcher and its clients. -/
structure Shared (ι : Type) where
  batcher : Batcher
  /-- What is in the buffer. -/
  waiting : List (Entry ι)
  errand : ι → Errand ι
  /-- The documents that were handed over so far. -/
  count : Nat

/-- What happens at a batcher that is shared. -/
inductive Happening (ι : Type) where
  | handed (e : Entry ι)
  /-- A client is told that it cannot hand over a document, since the batcher is closed. -/
  | refused (i : ι)
  | called (i : ι) (closing : Closing)
  /-- A batch is sent, which is made of a lot of documents. -/
  | launched (i : ι) (number : Nat) (batch : List Document) (lot : List (Entry ι))
  | landed (number : Nat) (verdict : Except SinkFault Unit)
  | looked (i : ι)
  /-- A client that waited for all answers has seen them. -/
  | through (i : ι)
  | told (i : ι) (closing : Closing) (answer : Except SinkFault Unit)

/-- The client that does it; answers to batches come by themselves. -/
def Happening.client? {ι : Type} : Happening ι → Option ι
  | .handed e => some e.client
  | .refused i | .called i _ | .launched i _ _ _ | .looked i | .through i | .told i _ _ => some i
  | .landed _ _ => none

/-- The answer to a batch that comes. -/
def Happening.verdict? {ι : Type} : Happening ι → Option (Except SinkFault Unit)
  | .landed _ v => some v
  | _ => none

/-- A batch is sent, or its answer comes. -/
def Happening.isWire {ι : Type} : Happening ι → Bool
  | .launched .. | .landed .. => true
  | _ => false

theorem Happening.verdict?_of_not_isWire {ι : Type} {h : Happening ι} (hquiet : h.isWire = false) :
    h.verdict? = none := by
  cases h with
  | landed n v => cases hquiet
  | _ => rfl

namespace Shared

variable {ι : Type}

/-- A batcher before its first client. -/
def start (b : Batcher) : Shared ι := ⟨b, [], fun _ => .free, 0⟩

/-- The entry of a document that is handed over next. -/
def entry (w : Shared ι) (i : ι) (d : Document) : Entry ι := ⟨i, w.count, d⟩

/--
The buffer is made of the documents that wait, and a batch that is to be sent of the documents of its lot.
-/
structure Faithful (w : Shared ι) : Prop where
  buffer : w.waiting.map (·.document) = w.batcher.buffer
  batch : ∀ i batch lot closing, w.errand i = .sending batch lot closing → lot.map (·.document) = batch

theorem faithful_start {b : Batcher} (hb : b.Settled) : (start b : Shared ι).Faithful where
  buffer := hb.buffer.symm
  batch _ _ _ _ hsending := by cases hsending

/-- The documents in the buffer stay the same. -/
theorem Faithful.still {w : Shared ι} (hw : w.Faithful) (b : Batcher) (hb : b.buffer = w.batcher.buffer) :
    ({ w with batcher := b } : Shared ι).Faithful := ⟨hw.buffer.trans hb.symm, hw.batch⟩

/-- The buffer is emptied. -/
theorem Faithful.empty {w : Shared ι} (hw : w.Faithful) (b : Batcher) (hb : b.buffer = []) (n : Nat) :
    (⟨b, [], w.errand, n⟩ : Shared ι).Faithful := ⟨hb.symm, hw.batch⟩

/-! ## What happens to the batcher -/

/-- What a happening does to the batcher, apart from its buffer. -/
inductive Moves (b : Batcher) : Happening ι → Batcher → Prop where
  | still {h : Happening ι} (buffer : List Document) : h.isWire = false → Moves b h { b with buffer := buffer }
  | launched (i : ι) (batch : List Document) (lot : List (Entry ι)) :
      Moves b (.launched i b.sent batch lot) (b.launch batch)
  | landed {f : Flight} (v : Except SinkFault Unit) :
      f ∈ b.flying → Moves b (.landed f.number v) (b.land f.number v)
  | joined {h : Happening ι} : h.isWire = false → Moves b h b.join
  | told (i : ι) (k : Closing) : Moves b (.told i k b.takeFault.1) (k.after b.takeFault.2)

variable {b b' : Batcher} {h : Happening ι}

theorem Moves.isOpen (hmoves : Moves b h b') (hopen : b'.closed = false) : b.closed = false := by
  cases hmoves with
  | told i k =>
      cases k with
      | flush => exact hopen
      | close => cases hopen
  | still _ _ | launched _ _ _ | landed _ _ | joined _ => exact hopen

/-- Only a close closes a batcher. -/
theorem Moves.closed_eq (hmoves : Moves b h b') (hclose : ∀ i r, h ≠ .told i .close r) :
    b'.closed = b.closed := by
  cases hmoves with
  | told i k =>
      cases k with
      | flush => rfl
      | close => cases hclose i _ rfl
  | still _ _ | launched _ _ _ | landed _ _ | joined _ => rfl

/-- A batch is on its way until its answer comes. -/
theorem Moves.flying (hmoves : Moves b h b') {f : Flight} (hf : f ∈ b.flying) :
    f ∈ b'.flying ∨ ∃ v, h = .landed f.number v ∧ b'.joined = b.joined.or (Batcher.faultOf? v) := by
  cases hmoves with
  | launched _ _ _ => exact .inl (List.mem_append_left _ hf)
  | @landed g v _ =>
      by_cases hn : f.number = g.number
      · exact .inr ⟨v, by rw [hn], Batcher.joined_land⟩
      · exact .inl (List.mem_filter.2 ⟨hf, by simpa using hn⟩)
  | told i k => cases k <;> exact .inl hf
  | still _ _ | joined _ => exact .inl hf

/-- Which fault is the first changes only by answers, until someone is told. -/
theorem Moves.joined_eq (hmoves : Moves b h b') (htold : ∀ i k r, h ≠ .told i k r) :
    b'.joined = b.joined.or (h.verdict?.bind Batcher.faultOf?) := by
  cases hmoves with
  | still _ hquiet =>
      rw [Happening.verdict?_of_not_isWire hquiet]
      exact (Option.or_none ..).symm
  | joined hquiet => simp [Happening.verdict?_of_not_isWire hquiet]
  | launched _ _ _ => simp [Happening.verdict?]
  | landed v _ => exact Batcher.joined_land
  | told i k => cases htold i k _ rfl

/-- A fault is kept until someone is told one. -/
theorem Moves.joined_ne (hmoves : Moves b h b') (hjoined : b.joined ≠ none) :
    b'.joined ≠ none ∨ ∃ i k f, h = .told i k (.error f) := by
  cases hmoves with
  | told i k =>
      rcases htold : b.takeFault with ⟨f | ⟨⟩, b'⟩
      · exact .inr ⟨i, k, f, rfl⟩
      · obtain ⟨-, rfl⟩ := Batcher.takeFault_eq_ok htold
        cases k <;> exact .inl hjoined
  | still _ _ => exact .inl hjoined
  | launched _ _ _ | joined _ =>
      refine .inl ?_
      simpa using hjoined
  | landed v _ =>
      refine .inl ?_
      rw [Batcher.joined_land]
      exact fun h => hjoined (Option.or_eq_none_iff.1 h).1

/-- A fault that was seen is kept until someone is told. -/
theorem Moves.fault_ne (hmoves : Moves b h b') (hfault : b.fault ≠ none) :
    b'.fault ≠ none ∨ ∃ i k f, h = .told i k (.error f) := by
  have hjoined : b.joined ≠ none := fun h => hfault (Option.or_eq_none_iff.1 h).1
  cases hmoves with
  | still _ _ | landed _ _ => exact .inl hfault
  | launched _ _ _ | joined _ =>
      refine .inl ?_
      simpa [Batcher.fault_join] using hjoined
  | told i k =>
      rcases htold : b.takeFault with ⟨f | ⟨⟩, b'⟩
      · exact .inr ⟨i, k, f, rfl⟩
      · obtain ⟨-, rfl⟩ := Batcher.takeFault_eq_ok htold
        cases k <;> exact .inl hfault

theorem mem_snoc {l : List (Happening ι)} {h' : Happening ι} (hmem : h' ∈ l ++ [h]) : h' ∈ l ∨ h' = h := by
  simpa using hmem

/-! ## Steps -/

variable [DecidableEq ι]

/-- The client turns to something else. -/
def turn (w : Shared ι) (i : ι) (errand : Errand ι) : Shared ι :=
  { w with errand := Function.update w.errand i errand }

/-- What can happen next. -/
inductive Step (w : Shared ι) : Happening ι → Shared ι → Prop where
  /-- A document waits for others. -/
  | hold {i : ι} {d : Document} {b : Batcher} : w.errand i = .free → w.batcher.closed = false →
      w.batcher.add d = (none, b) →
      Step w (.handed (w.entry i d))
        { w with batcher := b, waiting := w.waiting ++ [w.entry i d], count := w.count + 1 }
  /-- A document makes a batch full. -/
  | fill {i : ι} {d : Document} {batch : List Document} {b : Batcher} : w.errand i = .free →
      w.batcher.closed = false → w.batcher.add d = (some batch, b) →
      Step w (.handed (w.entry i d))
        ({ w with batcher := b, waiting := [], count := w.count + 1 }.turn i
          (.sending batch (w.waiting ++ [w.entry i d]) none))
  | refuse {i : ι} : w.errand i = .free → w.batcher.closed = true → Step w (.refused i) w
  /-- A closing begins with what is in the buffer. -/
  | rest {i : ι} {k : Closing} {batch : List Document} {b : Batcher} : w.errand i = .free →
      w.batcher.takeRest = (some batch, b) →
      Step w (.called i k) ({ w with batcher := b, waiting := [] }.turn i (.sending batch w.waiting (some k)))
  | nothing {i : ι} {k : Closing} {b : Batcher} : w.errand i = .free → w.batcher.takeRest = (none, b) →
      Step w (.called i k) ({ w with batcher := b }.turn i (.awaiting k))
  | launch {i : ι} {batch : List Document} {lot : List (Entry ι)} {closing : Option Closing} :
      w.errand i = .sending batch lot closing → w.batcher.closed = false →
      Step w (.launched i w.batcher.sent batch lot)
        ({ w with batcher := w.batcher.launch batch }.turn i (closing.elim .free .awaiting))
  /-- A batcher that was closed meanwhile sends nothing, and the batch is lost. -/
  | bar {i : ι} {batch : List Document} {lot : List (Entry ι)} :
      w.errand i = .sending batch lot none → w.batcher.closed = true → Step w (.refused i) (w.turn i .free)
  | barClosing {i : ι} {batch : List Document} {lot : List (Entry ι)} {k : Closing} :
      w.errand i = .sending batch lot (some k) → w.batcher.closed = true →
      Step w (.told i k (.error .closed)) (w.turn i .free)
  /-- The answer to a batch comes. -/
  | land {f : Flight} (v : Except SinkFault Unit) : f ∈ w.batcher.flying →
      Step w (.landed f.number v) { w with batcher := w.batcher.land f.number v }
  | look {i : ι} : (w.errand i).looks → Step w (.looked i) { w with batcher := w.batcher.join }
  | through {i : ι} {k : Closing} : w.errand i = .awaiting k → w.batcher.flying = [] →
      Step w (.through i) ({ w with batcher := w.batcher.join }.turn i (.settling k))
  | tell {i : ι} {k : Closing} {r : Except SinkFault Unit} {b : Batcher} : w.errand i = .settling k →
      w.batcher.takeFault = (r, b) →
      Step w (.told i k r)
        ({ w with batcher := k.after b }.turn i .free)

/-- What happened, in order. -/
inductive Run : Shared ι → List (Happening ι) → Shared ι → Prop where
  | nil (w : Shared ι) : Run w [] w
  | snoc {w w' w'' : Shared ι} {l : List (Happening ι)} {h : Happening ι} :
      Run w l w' → Step w' h w'' → Run w (l ++ [h]) w''

variable {w w' w'' : Shared ι} {l l' : List (Happening ι)} {i j : ι}

/-! ## Runs -/

theorem Run.single (hstep : Step w h w') : Run w [h] w' := .snoc (.nil w) hstep

theorem Run.append (hrun : Run w l w') (hrun' : Run w' l' w'') : Run w (l ++ l') w'' := by
  induction hrun' with
  | nil => simpa using hrun
  | snoc _ hstep ih =>
      rw [← List.append_assoc]
      exact ih.snoc hstep

theorem Run.cons (hstep : Step w h w') (hrun : Run w' l w'') : Run w (h :: l) w'' :=
  (Run.single hstep).append hrun

theorem Run.last (hrun : Run w (l ++ [h]) w'') : ∃ w', Run w l w' ∧ Step w' h w'' := by
  generalize hl : l ++ [h] = l' at hrun
  cases hrun with
  | nil => simp at hl
  | snoc hrun hstep =>
      obtain ⟨rfl, hh⟩ := List.append_inj' hl rfl
      cases hh
      exact ⟨_, hrun, hstep⟩

theorem Run.split (hrun : Run w (l ++ l') w'') : ∃ w', Run w l w' ∧ Run w' l' w'' := by
  induction l' using List.reverseRecOn generalizing w'' with
  | nil =>
      rw [List.append_nil] at hrun
      exact ⟨w'', hrun, .nil w''⟩
  | append_singleton l' h ih =>
      rw [← List.append_assoc] at hrun
      obtain ⟨v, hrun, hstep⟩ := hrun.last
      obtain ⟨w', hl, hl'⟩ := ih hrun
      exact ⟨w', hl, hl'.snoc hstep⟩

theorem Run.eq_of_nil (hrun : Run w [] w') : w' = w := by
  generalize hl : ([] : List (Happening ι)) = l at hrun
  cases hrun with
  | nil => rfl
  | snoc _ _ => simp at hl

theorem Run.uncons (hrun : Run w (h :: l) w'') : ∃ w', Step w h w' ∧ Run w' l w'' := by
  obtain ⟨w', hfirst, hrest⟩ := Run.split (l := [h]) hrun
  obtain ⟨v, hnil, hstep⟩ := Run.last (l := []) hfirst
  rw [hnil.eq_of_nil] at hstep
  exact ⟨w', hstep, hrest⟩

/-! ## Errands -/

@[simp] theorem errand_turn_self {k : Errand ι} : (w.turn i k).errand i = k := Function.update_self ..

theorem errand_turn_of_ne {k : Errand ι} (hne : j ≠ i) : (w.turn i k).errand j = w.errand j :=
  Function.update_of_ne hne ..

@[simp] theorem batcher_turn {k : Errand ι} : (w.turn i k).batcher = w.batcher := rfl

/-! ## What every step keeps -/

/-- A client turns to something else only by what it does. -/
theorem Step.errand_of_ne (hstep : Step w h w') (hne : h.client? ≠ some j) : w'.errand j = w.errand j := by
  have hj {i : ι} (hi : some i ≠ some j) : j ≠ i := fun h => hi (congrArg some h.symm)
  cases hstep with
  | hold _ _ _ => rfl
  | fill _ _ _ => exact errand_turn_of_ne (hj hne)
  | refuse _ _ => rfl
  | rest _ _ => exact errand_turn_of_ne (hj hne)
  | nothing _ _ => exact errand_turn_of_ne (hj hne)
  | launch _ _ => exact errand_turn_of_ne (hj hne)
  | bar _ _ => exact errand_turn_of_ne (hj hne)
  | barClosing _ _ => exact errand_turn_of_ne (hj hne)
  | land _ _ => rfl
  | look _ => rfl
  | through _ _ => exact errand_turn_of_ne (hj hne)
  | tell _ _ => exact errand_turn_of_ne (hj hne)

/-- Only documents that are handed over come into the buffer. -/
theorem Step.mem_waiting {e : Entry ι} (hstep : Step w h w') (he : e ∈ w'.waiting) :
    e ∈ w.waiting ∨ e.number = w.count ∧ w.errand e.client = .free := by
  cases hstep with
  | hold hfree _ _ =>
      rcases List.mem_append.1 he with he | he
      · exact .inl he
      · cases List.mem_singleton.1 he
        exact .inr ⟨rfl, hfree⟩
  | fill _ _ _ => cases he
  | rest _ _ => cases he
  | _ => exact .inl he

theorem Step.count_le (hstep : Step w h w') : w.count ≤ w'.count := by
  cases hstep with
  | hold _ _ _ => exact Nat.le_succ _
  | fill _ _ _ => exact Nat.le_succ _
  | _ => exact Nat.le_refl _

theorem Step.moves (hstep : Step w h w') : Moves w.batcher h w'.batcher := by
  cases hstep with
  | hold _ _ hadd =>
      cases Batcher.add_eq_none hadd
      exact .still _ rfl
  | fill _ _ hadd =>
      obtain ⟨-, rfl⟩ := Batcher.add_eq_some hadd
      exact .still _ rfl
  | rest _ hrest =>
      obtain ⟨-, rfl⟩ := Batcher.takeRest_eq_some hrest
      exact .still _ rfl
  | nothing _ hrest =>
      obtain ⟨-, rfl⟩ := Batcher.takeRest_eq_none hrest
      exact .still _ rfl
  | launch _ _ => exact .launched _ _ _
  | land v hf => exact .landed v hf
  | look _ | through _ _ => exact .joined rfl
  | @tell i k r b _ hfault =>
      obtain ⟨rfl, rfl⟩ := Prod.mk.inj hfault
      exact .told i k
  | refuse _ _ | bar _ _ | barClosing _ _ => exact .still w.batcher.buffer rfl

/-- Nothing opens a batcher again. -/
theorem Step.isOpen (hstep : Step w h w') (hopen : w'.batcher.closed = false) : w.batcher.closed = false :=
  hstep.moves.isOpen hopen

theorem Run.closed_eq (hrun : Run w l w') (hclose : ∀ i r, .told i .close r ∉ l) :
    w'.batcher.closed = w.batcher.closed := by
  induction hrun with
  | nil => rfl
  | snoc _ hstep ih =>
      rw [hstep.moves.closed_eq, ih fun i r hmem => hclose i r (List.mem_append_left _ hmem)]
      rintro i r rfl
      exact hclose i r (List.mem_append_right _ (List.mem_singleton_self _))

/-- As long as the batcher is open, no client is refused. -/
theorem Step.not_refused (hstep : Step w h w') (hopen : w'.batcher.closed = false) : h ≠ .refused i := by
  rintro rfl
  cases hstep with
  | refuse _ hclosed => cases hopen.symm.trans hclosed
  | bar _ hclosed => cases hopen.symm.trans hclosed

theorem Run.not_refused (hrun : Run w l w') (hopen : w'.batcher.closed = false) : .refused i ∉ l := by
  induction hrun with
  | nil => nofun
  | snoc _ hstep ih =>
      intro hmem
      rcases mem_snoc hmem with hmem | hrefused
      · exact ih (hstep.isOpen hopen) hmem
      · exact hstep.not_refused hopen hrefused.symm

/-- A client turns to something else; a batch of it is to be made of its lot. -/
theorem Faithful.turn (hw : w.Faithful) {k : Errand ι}
    (hk : ∀ batch lot closing, k = .sending batch lot closing → lot.map (·.document) = batch) :
    (w.turn i k).Faithful where
  buffer := hw.buffer
  batch j batch lot closing hsending := by
    by_cases hj : j = i
    · subst hj
      rw [errand_turn_self] at hsending
      exact hk _ _ _ hsending
    · rw [errand_turn_of_ne hj] at hsending
      exact hw.batch j batch lot closing hsending

theorem Step.faithful (hstep : Step w h w') (hw : w.Faithful) : w'.Faithful := by
  cases hstep with
  | @hold i d b _ _ hadd =>
      cases Batcher.add_eq_none hadd
      exact ⟨by simp [hw.buffer, entry], hw.batch⟩
  | @fill i d batch b _ _ hadd =>
      obtain ⟨rfl, rfl⟩ := Batcher.add_eq_some hadd
      apply (hw.empty _ rfl _).turn
      rintro _ _ _ ⟨⟩
      simp [hw.buffer, entry]
  | refuse _ _ => exact hw
  | @rest i k batch b _ hrest =>
      obtain ⟨rfl, rfl⟩ := Batcher.takeRest_eq_some hrest
      apply (hw.empty _ rfl _).turn
      rintro _ _ _ ⟨⟩
      exact hw.buffer
  | nothing _ hrest =>
      obtain ⟨-, rfl⟩ := Batcher.takeRest_eq_none hrest
      exact hw.turn nofun
  | @launch i batch lot closing _ _ =>
      apply (hw.still (w.batcher.launch batch) rfl).turn
      cases closing <;> nofun
  | bar _ _ => exact hw.turn nofun
  | barClosing _ _ => exact hw.turn nofun
  | land v _ => exact hw.still _ rfl
  | look _ => exact hw.still _ rfl
  | through _ _ => exact (hw.still w.batcher.join rfl).turn nofun
  | @tell i k r b _ hfault =>
      refine (hw.still _ ?_).turn nofun
      rw [← (Prod.mk.inj hfault).2]
      cases k <;> rfl

theorem Run.faithful (hrun : Run w l w') (hw : w.Faithful) : w'.Faithful := by
  induction hrun with
  | nil => exact hw
  | snoc _ hstep ih => exact hstep.faithful ih

/-! ## Clients that close -/

/-- A flush or a close empties the buffer when it is called. -/
theorem Step.closing (hstep : Step w h w') (hw : w.Faithful) (hclosing : (w'.errand j).closing? ≠ none) :
    (w.errand j).closing? ≠ none ∨ w'.waiting = [] := by
  by_cases hj : h.client? = some j
  · cases hstep with
    | fill _ _ _ | rest _ _ => exact .inr rfl
    | nothing _ hrest =>
        have hempty := hw.buffer
        rw [(Batcher.takeRest_eq_none hrest).1] at hempty
        exact .inr (List.map_eq_nil_iff.1 hempty)
    | @launch i batch lot closing hbatch _ =>
        cases hj
        rw [errand_turn_self] at hclosing
        cases closing with
        | none => cases hclosing rfl
        | some k =>
            refine .inl ?_
            rw [hbatch]
            nofun
    | bar _ _ | barClosing _ _ | tell _ _ =>
        cases hj
        rw [errand_turn_self] at hclosing
        cases hclosing rfl
    | through hwaits _ =>
        cases hj
        refine .inl ?_
        rw [hwaits]
        nofun
    | hold _ _ _ | refuse _ _ | look _ => exact .inl hclosing
    | land _ _ => cases hj
  · rw [hstep.errand_of_ne hj] at hclosing
    exact .inl hclosing

/-- A client is through with waiting when no answer is to come, or it was before. -/
theorem Step.settling (hstep : Step w h w') {k : Closing} (hsettling : w'.errand j = .settling k) :
    w.errand j = .settling k ∨
      h = .through j ∧ w.errand j = .awaiting k ∧ w.batcher.flying = [] ∧ w'.batcher = w.batcher.join := by
  by_cases hj : h.client? = some j
  · cases hstep with
    | fill _ _ _ | rest _ _ | nothing _ _ | bar _ _ | barClosing _ _ | tell _ _ =>
        cases hj
        cases errand_turn_self.symm.trans hsettling
    | @launch i batch lot closing _ _ =>
        cases hj
        rw [errand_turn_self] at hsettling
        cases closing <;> cases hsettling
    | through hwaits hflying =>
        cases hj
        cases errand_turn_self.symm.trans hsettling
        exact .inr ⟨rfl, hwaits, hflying, rfl⟩
    | hold _ _ _ | refuse _ _ | look _ => exact .inl hsettling
    | land _ _ => cases hj
  · rw [hstep.errand_of_ne hj] at hsettling
    exact .inl hsettling

/-! ## A sample -/

/-- So many documents are a batch, and one batch is sent at a time. -/
def inBatches (n : Nat) : SinkSettings := { SinkSettings.default with batchSize := n, concurrency := some 1 }

def sampleBatcher (endpoint : Address) (n : Nat) : Batcher :=
  ⟨endpoint, max 1 n, 1, (inBatches n).timeout, [], [], [], none, false, 0⟩

def sampleDocument : Document := ⟨"a", "oai", none, .null⟩

/-- A batcher can be made for the endpoint that is there by default. -/
theorem exists_of (s : SinkSettings) (processors : Nat) (hurl : s.url = SinkSettings.default.url)
    (hlanes : max 1 (s.concurrency.getD processors) ≤ Batcher.maxLanes) :
    ∃ endpoint, Batcher.of s processors =
      .ok ⟨endpoint, max 1 s.batchSize, max 1 (s.concurrency.getD processors), s.timeout, [], [], [], none, false, 0⟩ := by
  have hparsed : (Batcher.endpoint? SinkSettings.default.url).isOk = true := by decide +kernel
  rw [Batcher.of, hurl]
  cases hendpoint : Batcher.endpoint? SinkSettings.default.url with
  | error f =>
      rw [hendpoint] at hparsed
      cases hparsed
  | ok endpoint => exact ⟨endpoint, if_neg (Nat.not_lt.2 hlanes)⟩

theorem of_inBatches (n : Nat) : ∃ endpoint, Batcher.of (inBatches n) 1 = .ok (sampleBatcher endpoint n) :=
  exists_of (inBatches n) 1 rfl (show 1 ≤ Batcher.maxLanes by decide)

/-- The client has taken the document to send it. -/
def sampleHeld (endpoint : Address) (i : ι) : Shared ι :=
  (⟨sampleBatcher endpoint 1, [], fun _ => .free, 1⟩ : Shared ι).turn i
    (.sending [sampleDocument] [⟨i, 0, sampleDocument⟩] none)

theorem handed_sample (endpoint : Address) (i : ι) :
    Run (start (sampleBatcher endpoint 1)) ([] ++ [.handed ⟨i, 0, sampleDocument⟩]) (sampleHeld endpoint i) :=
  .single (.fill (i := i) (d := sampleDocument) rfl rfl rfl)

end Shared

end Harvesting
