import Harvesting.Output.Batcher

/-!
# Batchers, one operation at a time

* `Batcher.add_eq_none`, `add_eq_some`, `takeRest_eq_none`, `takeRest_eq_some` — what a document or a flush
  takes out of the buffer;
* `Batcher.firstFault`, `Batcher.joined` — the fault that is kept once all answers that came were looked at;
* `Batcher.of_eq_ok`, `Batcher.settings_of` — a batcher before its first document, and what it was made with.
-/

namespace Harvesting.Batcher

variable {b b' : Batcher} {d : Document} {batch : List Document} {n : Nat} {v : Except SinkFault Unit}

/-! ## The buffer -/

theorem add_eq_none (h : b.add d = (none, b')) : b' = { b with buffer := b.buffer ++ [d] } := by
  rw [add] at h
  split at h
  · cases h
  · cases h
    rfl

/-- A buffer that is full is taken as a whole. -/
theorem add_eq_some (h : b.add d = (some batch, b')) :
    batch = b.buffer ++ [d] ∧ b' = { b with buffer := [] } := by
  rw [add] at h
  split at h
  · cases h
    exact ⟨rfl, rfl⟩
  · cases h

theorem takeRest_eq_none (h : b.takeRest = (none, b')) : b.buffer = [] ∧ b' = b := by
  obtain ⟨hrest, rfl⟩ := Prod.mk.inj h
  have hempty : b.buffer = [] := by
    apply Decidable.byContradiction
    intro hne
    rw [if_neg hne] at hrest
    cases hrest
  refine ⟨hempty, ?_⟩
  rw [← hempty]

theorem takeRest_eq_some (h : b.takeRest = (some batch, b')) : batch = b.buffer ∧ b' = { b with buffer := [] } := by
  obtain ⟨hrest, rfl⟩ := Prod.mk.inj h
  split at hrest
  · cases hrest
  · cases hrest
    exact ⟨rfl, rfl⟩

/-- A buffer that is not taken is not full. -/
theorem length_of_add_eq_none (h : b.add d = (none, b')) : b'.buffer.length < b'.size := by
  rw [add] at h
  split at h
  · cases h
  · next hlength =>
    cases h
    exact Nat.lt_of_not_le hlength

/-- A buffer is taken as soon as it is full. -/
theorem length_of_add_eq_some (h : b.add d = (some batch, b')) (hbuffer : b.buffer.length < b.size) :
    batch.length = b.size := by
  rw [add] at h
  split at h
  · next hlength =>
    cases h
    simp at hlength ⊢
    omega
  · cases h

theorem ne_nil_of_takeRest (h : b.takeRest = (some batch, b')) : b.buffer ≠ [] := by
  intro hempty
  obtain ⟨hrest, -⟩ := Prod.mk.inj h
  rw [if_pos hempty] at hrest
  cases hrest

/-! ## Faults -/

/-- The fault that an answer tells. -/
def faultOf? : Except SinkFault Unit → Option SinkFault
  | .ok () => none
  | .error f => some f

/-- The first fault among some answers. -/
def firstFault (vs : List (Except SinkFault Unit)) : Option SinkFault := vs.findSome? faultOf?

theorem firstFault_append (vs vs' : List (Except SinkFault Unit)) :
    firstFault (vs ++ vs') = (firstFault vs).or (firstFault vs') := List.findSome?_append

theorem firstFault_singleton : firstFault [v] = faultOf? v := by simp [firstFault]

/-- The fault that is kept once all answers that came were looked at. -/
def joined (b : Batcher) : Option SinkFault := b.fault.or (firstFault b.landed)

theorem fault_join (b : Batcher) : b.join.fault = b.joined := by
  obtain ⟨endpoint, size, lanes, timeout, buffer, flying, landed, fault, closed, sent⟩ := b
  show landed.foldl _ fault = fault.or (firstFault landed)
  induction landed generalizing fault with
  | nil => simp [firstFault]
  | cons v vs ih =>
      rw [List.foldl_cons, ih]
      rcases v with f | ⟨⟩
      · cases fault <;> rfl
      · rfl

@[simp] theorem landed_join : b.join.landed = [] := rfl
@[simp] theorem flying_join : b.join.flying = b.flying := rfl
@[simp] theorem buffer_join : b.join.buffer = b.buffer := rfl
@[simp] theorem closed_join : b.join.closed = b.closed := rfl
@[simp] theorem sent_join : b.join.sent = b.sent := rfl

/-- Looking at answers that came does not change which fault is the first. -/
@[simp] theorem joined_join : b.join.joined = b.joined := by
  simp [joined, fault_join, firstFault]

@[simp] theorem landed_launch : (b.launch batch).landed = [] := rfl
@[simp] theorem flying_launch : (b.launch batch).flying = b.flying ++ [⟨b.sent, batch⟩] := rfl
@[simp] theorem buffer_launch : (b.launch batch).buffer = b.buffer := rfl
@[simp] theorem closed_launch : (b.launch batch).closed = b.closed := rfl
@[simp] theorem sent_launch : (b.launch batch).sent = b.sent + 1 := rfl
@[simp] theorem fault_launch : (b.launch batch).fault = b.joined := b.fault_join

@[simp] theorem joined_launch : (b.launch batch).joined = b.joined := by
  simp [joined, firstFault]

@[simp] theorem flying_land : (b.land n v).flying = b.flying.filter (·.number ≠ n) := rfl
@[simp] theorem landed_land : (b.land n v).landed = b.landed ++ [v] := rfl
@[simp] theorem fault_land : (b.land n v).fault = b.fault := rfl
@[simp] theorem buffer_land : (b.land n v).buffer = b.buffer := rfl
@[simp] theorem closed_land : (b.land n v).closed = b.closed := rfl
@[simp] theorem sent_land : (b.land n v).sent = b.sent := rfl

/-- A fault stays the first one when other answers come. -/
theorem joined_land : (b.land n v).joined = b.joined.or (faultOf? v) := by
  rw [joined, joined, fault_land, landed_land, firstFault_append, firstFault_singleton, Option.or_assoc]

theorem shut_of_closed (h : b.closed = true) : b.shut = b := by
  rw [shut, ← h]

theorem takeFault_eq_ok (h : b.takeFault = (.ok (), b')) : b.fault = none ∧ b' = b := by
  obtain ⟨hanswer, rfl⟩ := Prod.mk.inj h
  cases hfault : b.fault with
  | none => exact ⟨rfl, by rw [← hfault]⟩
  | some f =>
      rw [hfault] at hanswer
      cases hanswer

theorem takeFault_eq_error {f : SinkFault} (h : b.takeFault = (.error f, b')) :
    b.fault = some f ∧ b' = { b with fault := none } := by
  obtain ⟨hanswer, rfl⟩ := Prod.mk.inj h
  cases hfault : b.fault with
  | none =>
      rw [hfault] at hanswer
      cases hanswer
  | some f' =>
      rw [hfault] at hanswer
      cases hanswer
      exact ⟨rfl, rfl⟩

/-! ## The start -/

/-- The batcher has nothing to send, and no answer is to come or to be told. -/
structure Settled (b : Batcher) : Prop where
  buffer : b.buffer = []
  flying : b.flying = []
  landed : b.landed = []
  fault : b.fault = none

theorem Settled.joined (h : b.Settled) : b.joined = none := by
  rw [Batcher.joined, h.fault, h.landed]
  rfl

theorem exists_endpoint {s : SinkSettings} {processors : Nat} (h : of s processors = .ok b) :
    ∃ endpoint, endpoint? s.url = .ok endpoint ∧ max 1 (s.concurrency.getD processors) ≤ maxLanes ∧
      b = ⟨endpoint, max 1 s.batchSize, max 1 (s.concurrency.getD processors), s.timeout, [], [], [], none, false,
        0⟩ := by
  rw [of] at h
  cases hendpoint : endpoint? s.url with
  | error f =>
      rw [hendpoint] at h
      cases h
  | ok endpoint =>
      rw [hendpoint] at h
      change (if maxLanes < max 1 (s.concurrency.getD processors) then _ else _) = _ at h
      split at h
      · cases h
      · next hlanes =>
        cases h
        exact ⟨endpoint, rfl, Nat.not_lt.1 hlanes, rfl⟩

theorem of_eq_ok {s : SinkSettings} {processors : Nat} (h : of s processors = .ok b) :
    b.Settled ∧ b.closed = false := by
  obtain ⟨endpoint, -, -, rfl⟩ := exists_endpoint h
  exact ⟨⟨rfl, rfl, rfl, rfl⟩, rfl⟩

/-- How many documents are a batch, how many batches are sent at one time, and that none was sent yet. -/
theorem settings_of {s : SinkSettings} {processors : Nat} (h : of s processors = .ok b) :
    b.size = max 1 s.batchSize ∧ b.lanes = max 1 (s.concurrency.getD processors) ∧ b.sent = 0 := by
  obtain ⟨endpoint, -, -, rfl⟩ := exists_endpoint h
  exact ⟨rfl, rfl, rfl⟩

end Harvesting.Batcher
