import Mathlib.Data.List.Chain
import Harvesting.Proofs.Cycle.History
import Harvesting.Proofs.Cycle.NoLoss
import Harvesting.Proofs.Plan.Tile

/-!
# Windows without a gap

The windows of all checkpoints that a store ever accepts lie side by side, in the order in which they are
harvested. This is so for every run: whatever the repository answers, whichever flushes, loads and saves
fail, and wherever the harvest is cancelled or crashes.

* `Proceeds`, `Due` — where a harvest goes on after a checkpoint;
* `Tiles` — the windows of some checkpoints lie side by side;
* `Tiling` — the invariant on the history, and `Cycle.Tiled` — the same with the store;
* `Cycle.tiled_invariant` — every stage keeps it;
* `Cycle.windows_tile` — the result.
-/

namespace Harvesting

variable {s : CycleSettings} {lower upper : Instant} {log : List Event} {ev : Event}

/-- After the checkpoint comes its tile once more, or the next one if it is clean and has no token. -/
def Proceeds (lower upper : Instant) (c : Checkpoint) (window : Window) : Prop :=
  ∃ k, c.window = .tile lower upper k ∧ (window = .tile lower upper k ∨
    window = .tile lower upper (k + 1) ∧ c.isClean = true ∧ c.token = none)

/-- The window is the one to harvest after these checkpoints. -/
def Due (lower upper : Instant) (cs : List Checkpoint) (window : Window) : Prop :=
  match cs.getLast? with
  | none => window = .tile lower upper 0
  | some c => Proceeds lower upper c window

/-- The windows of the checkpoints lie side by side, from the first tile on. -/
structure Tiles (lower upper : Instant) (cs : List Checkpoint) : Prop where
  tile : ∀ c ∈ cs, ∃ k, c.window = .tile lower upper k
  head : ∀ c ∈ cs.head?, c.window = .tile lower upper 0
  chain : cs.IsChain fun c c' => Proceeds lower upper c c'.window

theorem Due.tile {cs : List Checkpoint} {window : Window} (h : Due lower upper cs window) :
    ∃ k, window = .tile lower upper k := by
  rw [Due] at h
  split at h
  · exact ⟨0, h⟩
  · obtain ⟨k, -, hk | ⟨hk, -⟩⟩ := h
    · exact ⟨k, hk⟩
    · exact ⟨k + 1, hk⟩

theorem Tiles.append {cs : List Checkpoint} {c : Checkpoint} (h : Tiles lower upper cs)
    (hdue : Due lower upper cs c.window) : Tiles lower upper (cs ++ [c]) where
  tile c' hc' := by
    rcases List.mem_append.1 hc' with hc' | hc'
    · exact h.tile c' hc'
    · cases List.mem_singleton.1 hc'
      exact hdue.tile
  head c' hc' := by
    cases cs with
    | nil =>
        cases hc'
        exact hdue
    | cons _ _ =>
        cases hc'
        exact h.head _ rfl
  chain := by
    refine List.isChain_append.2 ⟨h.chain, List.isChain_singleton c, ?_⟩
    intro c' hc' c'' hc''
    cases hc''
    rw [Option.mem_def] at hc'
    rw [Due, hc'] at hdue
    exact hdue

/-- The window was planned. -/
def IsPlanned (s : CycleSettings) (log : List Event) (window : Window) : Prop :=
  ∃ x ∈ plannings s log, x.2.window = window

theorem IsPlanned.append {window : Window} (h : IsPlanned s log window) :
    IsPlanned s (log ++ [ev]) window := by
  obtain ⟨x, hx, hwindow⟩ := h
  exact ⟨x, mem_plannings_append hx, hwindow⟩

/-- When the window was planned for the first time, it had been closed for as long as the planner asks. -/
def FirstClosed (s : CycleSettings) (log : List Event) (window : Window) : Prop :=
  ∀ now d, (plannings s log).find? (fun x => x.2.window = window) = some (now, d) →
    ∀ u ∈ window.upper, s.planner.Closed u now

/-- What is true of a history, where the store answers as it was told. -/
structure Tiling (s : CycleSettings) (lower upper : Instant) (log : List Event) : Prop where
  tiles : Tiles lower upper (saved s.key log)
  planned : ∀ c ∈ saved s.key log, IsPlanned s log c.window
  closed : ∀ k, FirstClosed s log (.tile lower upper (k + 1))
  read : ∀ c, log.getLast? = some ⟨.load s.key, .ok c⟩ → c = (saved s.key log).getLast?

/-- The configured window is made of whole seconds and has a width. -/
structure Spans (p : Planner) (lower upper : Instant) : Prop where
  window : p.window = ⟨some lower, some upper⟩
  wholeLower : lower.Whole
  wholeUpper : upper.Whole
  width : lower.secs < upper.secs

section

variable (hspans : Spans s.planner lower upper)
include hspans

/-- What is planned after the last checkpoint is due. -/
theorem Tiling.due (h : Tiling s lower upper log) {d : Decision} {template q : Request}
    (hfollows : s.planner.Follows (saved s.key log).getLast? d) (hrequest : d.request? template = some q) :
    Due lower upper (saved s.key log) d.window := by
  rw [Due]
  cases hlast : (saved s.key log).getLast? with
  | none =>
      rw [hlast] at hfollows
      cases hfollows with
      | first => rw [Window.tile_zero hspans.wholeLower hspans.wholeUpper]; exact hspans.window
      | wait => cases hrequest
  | some c =>
      rw [hlast] at hfollows
      obtain ⟨k, hk⟩ := h.tiles.tile c (List.mem_of_getLast? hlast)
      refine ⟨k, hk, ?_⟩
      rcases Planner.follows_tile hfollows hk with rfl | hsame | ⟨-, hnext, hclean⟩
      · cases hrequest
      · exact .inl hsame
      · exact .inr ⟨hnext, hclean⟩

/-- A tile other than the first one, of which there is no checkpoint yet, is entered from the one before. -/
theorem Tiling.advances (h : Tiling s lower upper log) {d : Decision} {k : Nat}
    (hfollows : s.planner.Follows (saved s.key log).getLast? d) (hwindow : d.window = .tile lower upper (k + 1))
    (hnever : ∀ c ∈ saved s.key log, c.window ≠ .tile lower upper (k + 1)) : ∃ a b, d = .advance a b := by
  cases hlast : (saved s.key log).getLast? with
  | none =>
      rw [hlast] at hfollows
      cases hfollows with
      | first =>
          rw [Decision.window, hspans.window, ← Window.tile_zero hspans.wholeLower hspans.wholeUpper] at hwindow
          cases Window.tile_inj hspans.width hwindow
      | wait => cases hwindow
  | some c =>
      rw [hlast] at hfollows
      have hmem := List.mem_of_getLast? hlast
      obtain ⟨j, hj⟩ := h.tiles.tile c hmem
      rcases Planner.follows_tile hfollows hj with rfl | hsame | ⟨hadvance, -⟩
      · cases hwindow
      · exact absurd (hj.trans (hsame.symm.trans hwindow)) (hnever c hmem)
      · exact hadvance

/--
A tile other than the first one is planned for the first time as the one after a stored checkpoint. A
later plan for it may come from a checkpoint of its own.
-/
theorem Tiling.closed_append (h : Tiling s lower upper log) (k : Nat) :
    FirstClosed s (log ++ [ev]) (.tile lower upper (k + 1)) := by
  intro now d hfind u hu
  rw [plannings_append, List.find?_append, Option.or_eq_some_iff] at hfind
  rcases hfind with hfind | ⟨hnone, hfind⟩
  · exact h.closed k now d hfind u hu
  · -- the plan is the new one, and the tile was not planned before
    have hwindow : d.window = .tile lower upper (k + 1) := by
      simpa using List.find?_some hfind
    have hnew := List.mem_of_find?_eq_some hfind
    obtain ⟨e, hlast, hplanned⟩ := Option.bind_eq_some_iff.1 (Option.mem_toList.1 hnew)
    obtain ⟨c, rfl, rfl, hplan⟩ := planned?_eq_some hplanned
    have hnever : ∀ c' ∈ saved s.key log, c'.window ≠ .tile lower upper (k + 1) := by
      intro c' hc' heq
      obtain ⟨x, hx, hxwindow⟩ := h.planned c' hc'
      have := List.find?_eq_none.1 hnone x hx
      rw [hxwindow, heq] at this
      simp at this
    have hfollows := Planner.follows_plan? hplan
    rw [h.read c hlast] at hfollows
    obtain ⟨a, b, rfl⟩ := h.advances hspans hfollows hwindow hnever
    have hb : b = u := by
      rw [← hwindow] at hu
      exact Option.some.inj hu
    rw [← hb]
    exact Planner.closed_of_plan? hplan

theorem Tiling.other (h : Tiling s lower upper log) (hev : ev.accepted? s.key = none)
    (hread : ∀ c, ev = ⟨.load s.key, .ok c⟩ → c = (saved s.key log).getLast?) :
    Tiling s lower upper (log ++ [ev]) where
  tiles := by
    rw [saved_other hev]
    exact h.tiles
  planned c hc := by
    rw [saved_other hev] at hc
    exact (h.planned c hc).append
  closed := h.closed_append hspans
  read c hc := by
    rw [List.getLast?_concat, Option.some.injEq] at hc
    rw [saved_other hev]
    exact hread c hc

theorem Tiling.save {c : Checkpoint} (h : Tiling s lower upper log)
    (hdue : Due lower upper (saved s.key log) c.window) (hplanned : IsPlanned s log c.window) :
    Tiling s lower upper (log ++ [⟨.save s.key c, .ok ()⟩]) where
  tiles := by
    rw [saved_save]
    exact h.tiles.append hdue
  planned c' hc' := by
    rw [saved_save] at hc'
    rcases List.mem_append.1 hc' with hc' | hc'
    · exact (h.planned c' hc').append
    · cases List.mem_singleton.1 hc'
      exact hplanned.append
  closed := h.closed_append hspans
  read c' hc' := by
    rw [List.getLast?_concat] at hc'
    cases hc'

end

/-! ## The invariant -/

namespace Cycle

open Surroundings

variable {σ : Type} [FaithfulStore σ] {allowed : Request → Except SourceFault Page → Prop}
  {w w' : Surroundings σ} {q : Request}

/-- The windows of the history lie side by side, and the store holds what it accepted last. -/
structure Tiled (s : CycleSettings) (lower upper : Instant) (w : Surroundings σ) : Prop where
  history : Tiling s lower upper w.log
  document : w.document s.key = (saved s.key w.log).getLast?.map Checkpoint.toDocument

/-- A request is for a window that was planned and is due. -/
structure Asks (s : CycleSettings) (lower upper : Instant) (q : Request) (w : Surroundings σ) : Prop
    extends Tiled s lower upper w where
  due : Due lower upper (saved s.key w.log) q.window
  planned : IsPlanned s w.log q.window

/-- Before each stage: a request for a page is for a window that is due. -/
def TiledAt (s : CycleSettings) (lower upper : Instant) : Cycle × Report → Surroundings σ → Prop
  | (.paging _ q, _), w => Asks s lower upper q w
  | _, w => Tiled s lower upper w

/-- The checkpoint that is read is the one that was accepted last. -/
theorem Tiled.read (h : Tiled s lower upper w) {c : Option Checkpoint}
    (hr : Replies allowed w (.load s.key) (.ok c) w') : c = (saved s.key w.log).getLast? := by
  have hreads := reads_of_load hr
  rw [h.document] at hreads
  cases hlast : (saved s.key w.log).getLast? with
  | none =>
      rw [hlast] at hreads
      exact hreads
  | some c₀ =>
      rw [hlast] at hreads
      obtain ⟨c', hread, rfl⟩ := hreads
      obtain ⟨k, hk⟩ := h.history.tiles.tile c₀ (List.mem_of_getLast? hlast)
      have hwhole : c₀.window.Whole := hk ▸ Window.whole_tile k
      rw [Checkpoint.eq_of_ofDocument hwhole hread]

section

variable (hspans : Spans s.planner lower upper)
include hspans

/-- An event that stores no checkpoint keeps the invariant. -/
theorem Tiled.other (h : Tiled s lower upper w) {e : Effect} {r : e.Reply} (hr : Replies allowed w e r w')
    (hev : Event.accepted? s.key ⟨e, r⟩ = none) (hdocument : w'.document s.key = w.document s.key) :
    Tiled s lower upper w' where
  history := by
    rw [hr.1]
    apply h.history.other hspans hev
    intro c hload
    cases hload
    exact h.read hr
  document := by
    rw [hr.1, saved_other hev, hdocument]
    exact h.document

theorem Asks.other (h : Asks s lower upper q w) {e : Effect} {r : e.Reply} (hr : Replies allowed w e r w')
    (hev : Event.accepted? s.key ⟨e, r⟩ = none) (hdocument : w'.document s.key = w.document s.key) :
    Asks s lower upper q w' where
  toTiled := h.toTiled.other hspans hr hev hdocument
  due := by
    rw [hr.1, saved_other hev]
    exact h.due
  planned := by
    rw [hr.1]
    exact h.planned.append

theorem quiet_tiled : Quiet (Replies (σ := σ) allowed) (Tiled s lower upper) := by
  intro w e r w' he h hr
  exact h.other hspans hr (accepted?_of_quiet he) (still_of_quiet he hr).document

theorem quiet_asks : Quiet (Replies (σ := σ) allowed) (Asks s lower upper q) := by
  intro w e r w' he h hr
  exact h.other hspans hr (accepted?_of_quiet he) (still_of_quiet he hr).document

/-- A checkpoint for the window that is due keeps the invariant, whether or not the store accepts it. -/
theorem Asks.save (h : Asks s lower upper q w) {c : Checkpoint} (hc : c.window = q.window)
    {r : Except Store.Fault Unit} (hr : Replies allowed w (.save s.key c) r w') :
    Tiled s lower upper w' := by
  rcases r with f | ⟨⟩
  · exact h.toTiled.other hspans hr rfl (still_of_save_error hr).document
  · have hdue : Due lower upper (saved s.key w.log) c.window := hc ▸ h.due
    have hplanned : IsPlanned s w.log c.window := hc ▸ h.planned
    constructor
    · rw [hr.1]
      exact h.history.save hspans hdue hplanned
    · rw [hr.1, saved_save, List.getLast?_concat]
      exact (of_save hr).1

/-- While a page is dealt with, its window stays due. -/
theorem paging_asks : Paging (Replies allowed) (Tiled s lower upper) (Asks (σ := σ) s lower upper q)
    (Asks s lower upper q) (Asks s lower upper q) (fun _ _ => Asks s lower upper q) s q where
  soundK _ h := h.toTiled
  soundT _ h := h.toTiled
  soundJ _ _ _ h := h.toTiled
  quietK := quiet_asks hspans
  quietT := quiet_asks hspans
  again _ h := h
  twice _ h := h
  cancelled _ _ h hr := quiet_asks hspans _ _ _ _ rfl h hr
  putOff w answer w' wait h hr _ := by
    rcases answer with f | p
    · exact h.other hspans hr rfl (still_of_request_error hr).document
    · exact h.other hspans hr rfl (of_request s.key hr).2.2.1
  failed w answer w' status e h hr _ := by
    rcases answer with f | p
    · exact h.other hspans hr rfl (still_of_request_error hr).document
    · exact h.other hspans hr rfl (of_request s.key hr).2.2.1
  answered _ _ _ h hr _ := h.other hspans hr rfl (of_request s.key hr).2.2.1
  taken _ _ _ _ _ h _ hr := h.other hspans hr rfl (of_index s.key hr).2.2.1
  refused _ _ _ _ _ _ h _ hr := h.other hspans hr rfl (still_of_index_error hr).document

theorem Asks.flush (h : Asks s lower upper q w) {r : Except SinkFault Unit}
    (hr : Replies allowed w .flush r w') : Asks s lower upper q w' := by
  rcases r with f | ⟨⟩
  · exact h.other hspans hr rfl (still_of_flush_error hr).document
  · exact h.other hspans hr rfl (of_flush s.key hr).2.2.1

/-- Once its checkpoint is stored, the window of a request is due as before. -/
theorem Asks.continued (h : Asks s lower upper q w) {c : Checkpoint} (hc : c.window = q.window)
    (hr : Replies allowed w (.save s.key c) (.ok ()) w') (t : String) :
    Asks s lower upper (q.continueWith t) w' where
  toTiled := h.save hspans hc hr
  due := by
    obtain ⟨k, hk⟩ := h.due.tile
    rw [hr.1, saved_save, Due, List.getLast?_concat]
    exact ⟨k, hc.trans hk, .inl hk⟩
  planned := by
    rw [hr.1]
    exact h.planned.append

theorem safe_persist_tiled (report : Report) {a : Attempt} (h : Asks s lower upper q w) :
    Program.Safe (Replies allowed) (Tiled s lower upper)
      (fun a w => Dealt (fun _ => Tiled s lower upper) (fun t _ => Asks s lower upper (q.continueWith t))
        report a w) (persist s q a) w := by
  refine safe_persist.2 ⟨h.toTiled, ?_⟩
  intro flushed w₁ h₁
  have hw₁ : Asks s lower upper q w₁ := h.flush hspans h₁
  refine ⟨hw₁.toTiled, ?_⟩
  intro saved w₂ h₂
  rw [Dealt]
  split
  · next t hfault _ =>
    -- the result set goes on only if the store took the checkpoint
    obtain ⟨-, rfl⟩ := firstFault_eq_none.1 hfault
    exact hw₁.continued hspans rfl h₂ t
  · exact hw₁.save hspans rfl h₂

theorem safe_page_tiled (tally : Tally) (report : Report) (h : Asks s lower upper q w) :
    Program.Safe (Replies allowed) (Tiled s lower upper) (TiledAt s lower upper)
      (page s tally q report) w := by
  refine (safe_page (E := fun _ => Tiled s lower upper)
    (N := fun t _ => Asks s lower upper (q.continueWith t)) tally report (paging_asks hspans) h
    (fun _ _ hw => hw) (fun _ => quiet_tiled hspans) ?_ ?_).mono ?_
  · intro _ w _ hw
    exact hw.toTiled
  · intro report' a w _ ha
    apply safe_persist_tiled hspans report'
    cases ha with
    | failed hw => exact hw
    | given _ hw => exact hw
  · intro st w hst
    cases hst with
    | ended hw => exact hw
    | continued hw => exact hw

/-- A cycle asks for a window that was planned and is due. -/
theorem asks_of_plan {c : Option Checkpoint} {now : Instant} {d : Decision} (h : Tiled s lower upper w)
    (hc : c = (saved s.key w.log).getLast?) (hplan : s.planner.plan? c now = some d)
    (hplanned : (now, d) ∈ plannings s w.log) (hrequest : d.request? s.template = some q) :
    Asks s lower upper q w := by
  obtain rfl := Decision.eq_of_request? hrequest
  have hfollows := Planner.follows_plan? hplan
  rw [hc] at hfollows
  exact ⟨h, h.history.due hspans hfollows hrequest, (now, d), hplanned, rfl⟩

theorem safe_plan_tiled (report : Report) (h : Tiled s lower upper w) :
    Program.Safe (Replies allowed) (Tiled s lower upper) (TiledAt s lower upper) (plan s report) w := by
  -- what is known of the checkpoint that is read, and then of the plan that is made of it
  let L (c : Option Checkpoint) (w : Surroundings σ) : Prop :=
    Tiled s lower upper w ∧ w.log.getLast? = some ⟨.load s.key, .ok c⟩
  let M (c : Option Checkpoint) (now : Instant) (w : Surroundings σ) : Prop :=
    Tiled s lower upper w ∧ c = (saved s.key w.log).getLast? ∧
      ∀ d, s.planner.plan? c now = some d → (now, d) ∈ plannings s w.log
  have hquietM (c : Option Checkpoint) (now : Instant) : Quiet (Replies allowed) (M c now) := by
    rintro w e r w' he ⟨hw, hc, hplanned⟩ hr
    refine ⟨quiet_tiled hspans _ _ _ _ he hw hr, ?_, ?_⟩
    · rw [hr.1, saved_other (accepted?_of_quiet he)]
      exact hc
    · intro d hplan
      rw [hr.1]
      exact mem_plannings_append (hplanned d hplan)
  have hload : ∀ w c w', Tiled s lower upper w → Replies allowed w (.load s.key) (.ok c) w' → L c w' := by
    intro w c w' hw hr
    refine ⟨quiet_tiled hspans _ _ _ _ rfl hw hr, ?_⟩
    rw [hr.1, List.getLast?_concat]
  have hclock : ∀ w c now w', L c w → Replies allowed w .clock now w' → M c now w' := by
    rintro w c now w' ⟨hw, hlast⟩ hr
    refine ⟨quiet_tiled hspans _ _ _ _ rfl hw hr, ?_, ?_⟩
    · rw [hr.1, saved_other rfl]
      exact hw.history.read c hlast
    · intro d hplan
      rw [hr.1, plannings_append, hlast, Option.bind_some, planned?_load hplan]
      exact List.mem_append_right _ (List.mem_singleton_self _)
  refine (safe_plan_at (L := L) (M := M) report (fun _ hw => hw) (quiet_tiled hspans) hquietM
    (fun _ _ hw => hw.1) (fun _ _ _ hw => hw.1) hload hclock h).mono ?_
  rintro st w ⟨hw, hst⟩
  cases hst with
  | again => exact hw
  | cancelled => exact hw
  | broken => exact hw
  | idle _ => exact hw
  | paging hplan hrequest hM => exact asks_of_plan hspans hw hM.2.1 hplan (hM.2.2 _ hplan) hrequest

/-- Every stage of a cycle keeps the windows side by side, and so does a crash. -/
theorem tiled_invariant :
    Course.Invariant (Replies (σ := σ) allowed) Crash (course s) start (Tiled s lower upper)
      (TiledAt s lower upper) where
  sound := by
    rintro ⟨_ | _ | _ | _, report⟩ w hw
    · exact hw
    · exact hw.toTiled
    · exact hw
    · exact hw
  first w hw := hw
  crash w w' hw hcrash := by
    rw [hcrash]
    exact ⟨hw.history, hw.document⟩
  stage := by
    rintro ⟨_ | ⟨tally, q⟩ | _ | _, report⟩ w p hw hp
    · cases hp
      exact safe_plan_tiled hspans report hw
    · cases hp
      exact safe_page_tiled hspans tally report hw
    · cases hp
    · cases hp

end

/-! ## The result -/

/-- Nothing was stored and nothing happened. -/
theorem tiled_start {store : σ} {shelf : Shelf}
    (hempty : FaithfulStore.held store s.key .checkpoint = none) :
    Tiled s lower upper (⟨store, shelf, []⟩ : Surroundings σ) where
  history := by
    refine ⟨⟨?_, ?_, .nil⟩, ?_, ?_, ?_⟩
    · intro c hc
      cases hc
    · intro c hc
      cases hc
    · intro c hc
      cases hc
    · intro k now d hfind
      cases hfind
    · intro c hc
      cases hc
  document := hempty

/--
The windows of all checkpoints that were ever stored lie side by side. From one to the next the window
stays, or moves on by its width where the checkpoint before is clean and has no token. Each window was
planned, and a window other than the configured one not before it had been closed for as long as the
planner asks.
-/
theorem windows_tile (hwindow : s.planner.window = ⟨some lower, some upper⟩) (hlower : lower.Whole)
    (hupper : upper.Whole) (hwidth : lower < upper) {store : σ} {shelf : Shelf}
    (hempty : FaithfulStore.held store s.key .checkpoint = none) {p : Program (Cycle × Report)}
    {w : Surroundings σ}
    (hreach : (course s).Reaches (Replies anything) Crash start ⟨store, shelf, []⟩ p w) :
    (∀ c ∈ saved s.key w.log, ∃ k, c.window = .tile lower upper k) ∧
    (∀ c ∈ (saved s.key w.log).head?, c.window = .tile lower upper 0) ∧
    ((saved s.key w.log).IsChain fun c c' => ∃ k, c.window = .tile lower upper k ∧
      (c'.window = .tile lower upper k ∨
        c'.window = .tile lower upper (k + 1) ∧ c.isClean = true ∧ c.token = none)) ∧
    (∀ c ∈ saved s.key w.log, ∃ x ∈ plannings s w.log, x.2.window = c.window) ∧
    ∀ k, 1 ≤ k → ∀ now d,
      (plannings s w.log).find? (fun x => x.2.window = .tile lower upper k) = some (now, d) →
        s.planner.Closed ⟨upper.secs + k * (upper.secs - lower.secs), 0⟩ now := by
  have hsecs : lower.secs < upper.secs := by
    rcases hwidth with h | ⟨-, h⟩
    · exact h
    · rw [hlower, hupper] at h
      omega
  have htiled := hreach.invariant (tiled_invariant ⟨hwindow, hlower, hupper, hsecs⟩) (tiled_start hempty)
  obtain ⟨⟨htile, hhead, hchain⟩, hplanned, hclosed, -⟩ := htiled.history
  refine ⟨htile, hhead, hchain, hplanned, ?_⟩
  intro k hk now d hfind
  obtain ⟨j, rfl⟩ := Nat.exists_eq_add_of_le' hk
  exact hclosed j now d hfind _ rfl

/-- The sample with a window of 100 seconds. -/
def tiled : CycleSettings :=
  { sample with planner := ⟨⟨some ⟨0, 0⟩, some ⟨100, 0⟩⟩, Planner.defaultSkew * 1000000000⟩ }

/-- A cycle of the sample at 1000 seconds, where each window has one page. -/
def tiledCycle (w : Surroundings MemoryStore) : (Cycle × Report) × Surroundings MemoryStore :=
  (course tiled).follow (calm (fun _ => .ok (samplePage (some "more"))) ⟨1000, 0⟩) 3 start w

theorem reaches_tiledCycle {w : Surroundings MemoryStore}
    (h : (course tiled).Reaches (Replies anything) Crash start sampleStart (.done start) w) :
    (course tiled).Reaches (Replies anything) Crash start sampleStart (.done (tiledCycle w).1)
      (tiledCycle w).2 :=
  Course.Reaches.follow (replies_calm (fun _ => trivial) ⟨1000, 0⟩) 3 h

/-- The history of the sample after two cycles. -/
def tiledLog : List Event := (tiledCycle (tiledCycle sampleStart).2).2.log

theorem windows_tile_sample :
    (⟨0, 0⟩ : Instant).Whole ∧ (⟨100, 0⟩ : Instant).Whole ∧ (⟨0, 0⟩ : Instant) < ⟨100, 0⟩ ∧
    (saved tiled.key tiledLog).map (·.window) =
      [.tile ⟨0, 0⟩ ⟨100, 0⟩ 0, .tile ⟨0, 0⟩ ⟨100, 0⟩ 1] ∧
    ∀ c ∈ saved tiled.key tiledLog, ∃ k, c.window = .tile ⟨0, 0⟩ ⟨100, 0⟩ k := by
  have hfirst := reaches_tiledCycle .start
  have hended : course tiled (tiledCycle sampleStart).1 = none := by rfl
  have hreach := reaches_tiledCycle (hfirst.again hended)
  have htile := windows_tile (s := tiled) rfl rfl rfl (by decide) rfl hreach
  exact ⟨rfl, rfl, by decide, by decide +kernel, htile.1⟩

end Cycle

end Harvesting
