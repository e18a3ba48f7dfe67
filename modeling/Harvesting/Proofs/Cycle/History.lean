import Harvesting.Proofs.Cycle.Surroundings

/-!
# What a history tells

The checkpoints and the plans of a source, read off the log of all that happened.

* `Event.accepted?`, `saved` — the checkpoints that the store accepted;
* `planned?`, `plannings` — what was planned, and when: a checkpoint that is read is followed by the time
  of day, and the planner makes a decision of the two;
* `saved_append`, `plannings_append` — what one more event adds.
-/

namespace Harvesting

/-- The checkpoint that the store accepts for the key. -/
def Event.accepted? (key : String) : Event → Option Checkpoint
  | ⟨.save k c, .ok ()⟩ => if k = key then some c else none
  | _ => none

/-- The checkpoints that the store accepted for the key, in order. -/
def saved (key : String) (log : List Event) : List Checkpoint := log.filterMap (Event.accepted? key)

/-- The decision that is made of a checkpoint that was read and the time of day that was read next. -/
def planned? (s : CycleSettings) : Event → Event → Option (Instant × Decision)
  | ⟨.load key, .ok c⟩, ⟨.clock, now⟩ =>
    if key = s.key then (s.planner.plan? c now).map fun d => (now, d) else none
  | _, _ => none

/-- The decisions that were made for the source, in order, each with the time of day. -/
def plannings (s : CycleSettings) (log : List Event) : List (Instant × Decision) :=
  (log.zip log.tail).filterMap fun e => planned? s e.1 e.2

variable {s : CycleSettings} {key : String} {log : List Event} {ev : Event}

theorem accepted?_of_quiet {e : Effect} {r : e.Reply} (h : e.isQuiet = true) :
    Event.accepted? key ⟨e, r⟩ = none := by
  cases e <;> first | rfl | cases h

theorem exchange?_of_quiet {e : Effect} {r : e.Reply} (h : e.isQuiet = true) :
    Event.exchange? ⟨e, r⟩ = none := by
  cases e <;> first | rfl | cases h

theorem filterMap_one {α β : Type} (f : α → Option β) (a : α) : [a].filterMap f = (f a).toList := by
  cases h : f a <;> simp [h]

theorem saved_append : saved key (log ++ [ev]) = saved key log ++ (ev.accepted? key).toList := by
  rw [saved, List.filterMap_append, filterMap_one]
  rfl

theorem saved_other (h : ev.accepted? key = none) : saved key (log ++ [ev]) = saved key log := by
  rw [saved_append, h, Option.toList_none, List.append_nil]

theorem saved_save (c : Checkpoint) : saved key (log ++ [⟨.save key c, .ok ()⟩]) = saved key log ++ [c] := by
  have haccepted : Event.accepted? key ⟨.save key c, .ok ()⟩ = some c := if_pos rfl
  rw [saved_append, haccepted, Option.toList_some]

theorem zip_tail_append {α : Type} (as : List α) (a : α) :
    (as ++ [a]).zip (as ++ [a]).tail = as.zip as.tail ++ (as.getLast?.map fun b => (b, a)).toList := by
  induction as with
  | nil => rfl
  | cons b as ih =>
      cases as with
      | nil => rfl
      | cons c as =>
          rw [List.getLast?_cons_cons]
          simp only [List.cons_append, List.tail_cons, List.zip_cons_cons] at ih ⊢
          rw [ih]

/-- Only the last event and the one before it can be a new plan. -/
theorem plannings_append :
    plannings s (log ++ [ev]) = plannings s log ++ (log.getLast?.bind fun e => planned? s e ev).toList := by
  rw [plannings, zip_tail_append, List.filterMap_append, ← plannings]
  congr 1
  cases log.getLast? with
  | none => rfl
  | some e => rw [Option.map_some, Option.toList_some, filterMap_one, Option.bind_some]

theorem planned?_eq_some {e : Event} {now : Instant} {d : Decision} (h : planned? s e ev = some (now, d)) :
    ∃ c, e = ⟨.load s.key, .ok c⟩ ∧ ev = ⟨.clock, now⟩ ∧ s.planner.plan? c now = some d := by
  rw [planned?.eq_def] at h
  split at h
  · split at h
    · next hkey =>
      obtain ⟨d', hplan, heq⟩ := Option.map_eq_some_iff.1 h
      cases heq
      cases hkey
      exact ⟨_, rfl, rfl, hplan⟩
    · cases h
  · cases h

theorem planned?_load {c : Option Checkpoint} {now : Instant} {d : Decision}
    (h : s.planner.plan? c now = some d) :
    planned? s ⟨.load s.key, .ok c⟩ ⟨.clock, now⟩ = some (now, d) := by
  rw [planned?, if_pos rfl, h]
  rfl

/-- The decisions that were made stay in the history. -/
theorem mem_plannings_append {x : Instant × Decision} (h : x ∈ plannings s log) :
    x ∈ plannings s (log ++ [ev]) := by
  rw [plannings_append]
  exact List.mem_append_left _ h

end Harvesting
