import Harvesting.Proofs.Cycle.Convergence

/-!
# Undisturbed cycles

One cycle in surroundings without faults asks for every page of its window once and gets through. With
that, all that a disturbed harvest leaves is compared with all that one such cycle leaves.

* `Able` — store and shelf that do not refuse;
* `Cycle.follow_undisturbed` — the cycle ends, and it has arrived;
* `Cycle.converges` — a disturbed harvest that got through leaves the same.
-/

namespace Harvesting

open Surroundings

variable {s : CycleSettings} {g : Campaign} {now : Instant} {w w' : Surroundings MemoryStore}

/-- Neither the store nor the shelf refuses. -/
structure Able (s : CycleSettings) (w : Surroundings MemoryStore) : Prop where
  key : Key.isValid s.key = true
  loads : w.store.failingLoads = 0
  flushes : w.shelf.failAt = none
  opened : w.shelf.closed = false

/-- The answers without faults. -/
def Calm (repo : Repository) (now : Instant) : Answers (Surroundings MemoryStore) :=
  fun w e r w' => calm repo.answer now w e = (r, w')

theorem replies_of_calm {e : Effect} {r : e.Reply} (h : Calm g.repo now w e r w') :
    Replies g.repo.Disturbed w e r w' := by
  have hr : Replies g.repo.Disturbed w e (calm g.repo.answer now w e).1 (calm g.repo.answer now w e).2 :=
    replies_calm (fun q => .inl rfl) now w e
  rw [show calm g.repo.answer now w e = (r, w') from h] at hr
  exact hr

namespace MemoryStore

theorem get_of_able {m : MemoryStore} (h : m.failingLoads = 0) (key : String) (slot : Slot) :
    (m.get key slot).2 = m := by
  rw [get]
  split
  · rfl
  · rw [if_neg (by omega)]

theorem failingLoads_put (m : MemoryStore) (key : String) (slot : Slot) (doc : Json) :
    (m.put key slot doc).2.failingLoads = m.failingLoads := by
  rcases put_eq m key slot doc with ⟨f, h⟩ | ⟨history, h⟩ <;> rw [h]

/-- A store that answers does not refuse. -/
theorem able_of_load {m : MemoryStore} {key : String} {c : Option Checkpoint} {m' : MemoryStore}
    (h : Store.load m key = (.ok c, m')) : Key.isValid key = true ∧ m.failingLoads = 0 := by
  -- a load answers only if `get` does, and that looks at the key first and at the counter then
  have hget : ∃ doc, (m.get key .checkpoint).1 = .ok doc := by
    rw [Store.load] at h
    split at h
    · next heq => exact ⟨_, congrArg Prod.fst heq⟩
    · next heq => exact ⟨_, congrArg Prod.fst heq⟩
    · cases h
  obtain ⟨doc, hdoc⟩ := hget
  rw [get, Store.validate] at hdoc
  cases hkey : Key.isValid key with
  | false => simp [hkey] at hdoc
  | true =>
      refine ⟨rfl, ?_⟩
      apply Nat.eq_zero_of_not_pos
      intro hpos
      simp [hkey, hpos] at hdoc

theorem load_of_able {m : MemoryStore} (h : m.failingLoads = 0) (key : String) :
    (Store.load m key).2 = m := by
  have hget : (Store.get m key .checkpoint).2 = m := get_of_able h key .checkpoint
  rw [Store.load]
  split <;> next heq =>
    rw [heq] at hget
    exact hget

theorem loadTally_of_able {m : MemoryStore} (h : m.failingLoads = 0) (key : String) :
    (Store.loadTally m key).2 = m := by
  have hget : (Store.get m key .tally).2 = m := get_of_able h key .tally
  rw [Store.loadTally]
  split <;> next heq =>
    rw [heq] at hget
    exact hget

end MemoryStore

theorem able_of_quiet {e : Effect} {r : e.Reply} (h : Able s w) (he : e.isQuiet = true)
    (hr : Calm g.repo now w e r w') : Able s w' := by
  cases e with
  | cancelled => cases hr; exact ⟨h.key, h.loads, h.flushes, h.opened⟩
  | pause n => cases hr; exact ⟨h.key, h.loads, h.flushes, h.opened⟩
  | clock => cases hr; exact ⟨h.key, h.loads, h.flushes, h.opened⟩
  | wallClock => cases hr; exact ⟨h.key, h.loads, h.flushes, h.opened⟩
  | load key =>
      cases hr
      refine ⟨h.key, ?_, h.flushes, h.opened⟩
      exact (congrArg MemoryStore.failingLoads (MemoryStore.load_of_able h.loads key)).trans h.loads
  | loadTally key =>
      cases hr
      refine ⟨h.key, ?_, h.flushes, h.opened⟩
      exact (congrArg MemoryStore.failingLoads (MemoryStore.loadTally_of_able h.loads key)).trans h.loads
  | saveTally key t =>
      cases hr
      exact ⟨h.key, (MemoryStore.failingLoads_put w.store key .tally t.toDocument).trans h.loads,
        h.flushes, h.opened⟩
  | save key c => cases he
  | request q limit => cases he
  | index d => cases he
  | flush => cases he
  | close => cases he

theorem calm_index {d : Document} {r : Except SinkFault Unit} (h : Able s w)
    (hr : Calm g.repo now w (.index d) r w') : r = .ok () ∧ Able s w' := by
  have hindex : w.shelf.index d = (.ok (), { w.shelf with pending := w.shelf.pending ++ [d] }) := by
    rw [Shelf.index, if_neg (by simp [h.opened])]
  obtain ⟨rfl, rfl⟩ := Prod.mk.inj hr
  refine ⟨congrArg Prod.fst hindex, h.key, h.loads, ?_, ?_⟩
  · exact (congrArg (fun a => a.2.failAt) hindex).trans h.flushes
  · exact (congrArg (fun a => a.2.closed) hindex).trans h.opened

theorem calm_flush {r : Except SinkFault Unit} (h : Able s w) (hr : Calm g.repo now w .flush r w') :
    r = .ok () ∧ Able s w' := by
  have hflush : w.shelf.flush.1 = .ok () ∧ w.shelf.flush.2.failAt = none ∧
      w.shelf.flush.2.closed = w.shelf.closed := by
    rw [Shelf.flush, h.flushes, if_neg (by simp)]
    exact ⟨rfl, rfl, rfl⟩
  obtain ⟨rfl, rfl⟩ := Prod.mk.inj hr
  exact ⟨hflush.1, h.key, h.loads, hflush.2.1, hflush.2.2.trans h.opened⟩

/-- A checkpoint that can be read again is stored. -/
theorem calm_save {c : Checkpoint} {r : Except Store.Fault Unit} (h : Able s w)
    (hwindow : c.window.Datable) (hstatus : Checkpoint.Storable c.status)
    (hr : Calm g.repo now w (.save s.key c) r w') : r = .ok () ∧ Able s w' := by
  obtain ⟨rfl, rfl⟩ := Prod.mk.inj hr
  have hput : (w.store.put s.key .checkpoint c.toDocument).1 = .ok () := by
    have hvalid : Store.validate s.key = .ok () := if_pos h.key
    -- the store reads a checkpoint back before it takes it
    have hread : Store.understood s.key .checkpoint (Checkpoint.ofDocument c.toDocument) = .ok c := by
      rw [Checkpoint.ofDocument_eq hwindow hstatus]
      rfl
    rw [MemoryStore.put, hvalid]
    simp only [hread]
  exact ⟨hput, h.key, (MemoryStore.failingLoads_put w.store s.key .checkpoint c.toDocument).trans h.loads,
    h.flushes, h.opened⟩

namespace Cycle

variable {token : Option String}

/-! ## The stages of an undisturbed cycle -/

/-- The cycle stands before the page of a token. -/
def Standing (s : CycleSettings) (g : Campaign) (token : Option String) (w : Surroundings MemoryStore) : Prop :=
  Able s w ∧ Before s g token w

/-- The cycle got through. -/
def Through (s : CycleSettings) (g : Campaign) (w : Surroundings MemoryStore) : Prop :=
  Completed s w ∧ Arrived s g w

theorem harvest_of_calm {e : Effect} {r : e.Reply} (h : Before s g token w)
    (hr : Calm g.repo now w e r w') : Harvest s g.repo w e r w' := by
  obtain ⟨rest, -, hpos⟩ := h
  exact ⟨hpos.unfinished, replies_of_calm hr⟩

theorem quiet_standing : Quiet (Calm g.repo now) (Standing s g token) := by
  intro w e r w' he ⟨hable, hbefore⟩ hr
  exact ⟨able_of_quiet hable he hr, quiet_before _ _ _ _ he hbefore (harvest_of_calm hbefore hr)⟩

theorem quiet_through : Quiet (Calm g.repo now) (Through s g) := by
  intro w e r w' he ⟨hdone, harrived⟩ hr
  have hreply := replies_of_calm hr
  have hstill : Still s.key w w' := still_of_quiet he hreply
  refine ⟨(completed_after hreply.1).2 (.inl hdone), hstill.document.trans harrived.document, ?_⟩
  rw [← harrived.shelf]
  funext id
  rw [Shelf.document?, hstill.committed]
  rfl

theorem paging_standing (now : Instant) (hrepo : g.repo.Complete) :
    Paging (Calm g.repo now) (fun _ => True) (Standing s g token) (fun _ => False) (fun _ => False)
      (fun p ds w => Able s w ∧ Delivering s g token p ds w) s (requestAt s g token) where
  soundK _ _ := trivial
  soundT _ _ := trivial
  soundJ _ _ _ _ := trivial
  quietK := quiet_standing
  quietT _ _ _ _ _ hw _ := hw
  again _ hw := hw.elim
  twice _ hw := hw
  cancelled w w' _ hr := by cases (Prod.mk.inj hr).1
  putOff w answer w' _ _ hr hwait := by
    obtain ⟨rfl, -⟩ := Prod.mk.inj hr
    cases (hrepo _ _).2.symm.trans hwait
  failed w answer w' _ _ _ hr hfailed := by
    obtain ⟨rfl, -⟩ := Prod.mk.inj hr
    cases (hrepo _ _).2.symm.trans hfailed
  answered w p w' hw hr hp := by
    have hdelivering := paging_before.answered w p w' hw.2 (harvest_of_calm hw.2 hr) hp
    obtain ⟨-, rfl⟩ := Prod.mk.inj hr
    exact ⟨⟨hw.1.key, hw.1.loads, hw.1.flushes, hw.1.opened⟩, hdelivering⟩
  taken w p ds d w' hw hd hr :=
    ⟨(calm_index hw.1 hr).2, paging_before.taken w p ds d w' hw.2 hd (harvest_of_calm hw.2.2.1 hr)⟩
  refused w p ds d f w' hw _ hr := by cases (calm_index hw.1 hr).1

/-- A page is written and remembered; with the last page the cycle is through. -/
theorem safe_persist_standing {a : Attempt} (report : Report) (hrepo : g.repo.Complete)
    (hwindow : g.window.Datable)
    (h : Attempted (fun _ => False) (fun p ds w => Able s w ∧ Delivering s g token p ds w) s a w) :
    Program.Safe (Calm g.repo now) (fun _ => True)
      (Dealt (fun _ => Through s g)
        (fun t _ w => (g.repo g.window token).token = some t ∧ Standing s g (some t) w) report)
      (persist s (requestAt s g token) a) w := by
  cases h with
  | failed hw => exact hw.elim
  | given hp hw =>
      obtain ⟨hable, hdelivering⟩ := hw
      refine safe_persist.2 ⟨trivial, ?_⟩
      intro flushed w₁ h₁
      refine ⟨trivial, ?_⟩
      intro saved w₂ h₂
      -- neither the flush nor the save can be refused
      obtain ⟨rfl, hable₁⟩ := calm_flush hable h₁
      obtain ⟨rfl, ⟨rest, hpages, hpos⟩, hbase⟩ := hdelivering
      have hstatus := congrArg Int.ofNat (hrepo g.window token).1
      have hclean : (checkpointAfter (requestAt s g token)
          ⟨(g.repo g.window token).status, none, (g.repo g.window token).token⟩ (.ok ())).isClean = true :=
        isClean_checkpointAfter.2 ⟨hstatus, rfl, rfl⟩
      have hstorable : Checkpoint.Storable (g.repo g.window token).status := by
        rw [(hrepo g.window token).1]
        exact ⟨by decide, by decide⟩
      have hdatable : (checkpointAfter (requestAt s g token)
          ⟨(g.repo g.window token).status, none, (g.repo g.window token).token⟩ (.ok ())).window.Datable :=
        hwindow
      obtain ⟨rfl, hable₂⟩ := calm_save hable₁ hdatable hstorable h₂
      -- so these are answers of a disturbed harvest as well, and what is known of one applies
      have hflush : Harvest s g.repo w .flush (.ok ()) w₁ := ⟨hpos.unfinished, replies_of_calm h₁⟩
      have hsave : Harvest s g.repo w₁ (.save s.key _) (.ok ()) w₂ :=
        ⟨(hpos.flush hflush.2).unfinished, replies_of_calm h₂⟩
      have hafter := (saved_clean (.given hp ⟨rfl, ⟨rest, hpages, hpos⟩, hbase⟩) hclean hflush hsave).2 rfl
      rw [tokenAfter_of_clean hclean] at hafter
      rw [tokenAfter_of_clean hclean, Dealt]
      cases htoken : (g.repo g.window token).token with
      | none =>
          simp only [htoken] at hafter
          exact hafter
      | some t =>
          simp only [htoken] at hafter
          exact ⟨rfl, hable₂, hafter.2⟩

theorem run_page (now : Instant) (hrepo : g.repo.Complete) (hwindow : g.window.Datable)
    (tally : Tally) (report : Report) (hw : Standing s g token w) :
    ∃ st w', (page s tally (requestAt s g token) report).run (calm g.repo.answer now) w = (st, w') ∧
      Paged (fun _ => Through s g)
        (fun t _ w => (g.repo g.window token).token = some t ∧ Standing s g (some t) w)
        (requestAt s g token) st w' := by
  have hsafe := safe_page (E := fun _ => Through s g)
    (N := fun t _ w => (g.repo g.window token).token = some t ∧ Standing s g (some t) w)
    tally report (paging_standing now hrepo) hw (fun _ _ _ => trivial) (fun _ => quiet_through)
    (fun _ _ _ hw => hw.elim) (fun r a w _ ha => safe_persist_standing r hrepo hwindow ha)
  exact ⟨_, _, rfl, hsafe.run fun _ _ => rfl⟩

/-- From the page of a token the cycle gets through, with one stage for each page. -/
theorem follow_standing (hrepo : g.repo.Complete) (hwindow : g.window.Datable) {rest : List Page}
    (hpages : g.repo.Pages g.window token rest) (tally : Tally) (report : Report)
    (hw : Standing s g token w) :
    ∃ report' w', (course s).follow (calm g.repo.answer now) rest.length
      (.paging tally (requestAt s g token), report) w = ((.ended, report'), w') ∧ Through s g w' := by
  -- on the pages that are still to come; each takes one stage
  induction hpages generalizing tally report w with
  | last hlast =>
      obtain ⟨st, w', hrun, hst⟩ := run_page now hrepo hwindow tally report hw
      rw [List.length_singleton, Course.follow]
      simp only [course, hrun]
      cases hst with
      | ended hthrough => exact ⟨_, _, rfl, hthrough⟩
      | continued hnext => cases hlast.symm.trans hnext.1
  | next htoken _ ih =>
      obtain ⟨st, w', hrun, hst⟩ := run_page now hrepo hwindow tally report hw
      rw [List.length_cons, Course.follow]
      simp only [course, hrun]
      cases hst with
      | ended hthrough => exact ⟨_, _, Course.follow_of_none _ rfl _ _, hthrough⟩
      | continued hnext =>
          cases htoken.symm.trans hnext.1
          exact ih _ _ hnext.2

/-- Planning leads to the first page. -/
theorem safe_plan_standing {c₀ : Option Checkpoint} {d : Decision} (report : Report)
    (hg : g.Planned s c₀ now d) (hload : Store.load w.store s.key = (.ok c₀, w.store))
    (hw : Standing s g none w) :
    Program.Safe (Calm g.repo now) (fun _ => True)
      (fun st w => (∃ tally report', st = (.paging tally (requestAt s g none), report')) ∧
        Standing s g none w) (plan s report) w := by
  refine Program.safe_perform.2 ⟨trivial, ?_⟩
  intro r w₁ h₁
  have hw₁ := quiet_standing _ _ _ _ rfl hw h₁
  -- nobody cancels
  cases h₁
  refine Program.safe_perform.2 ⟨trivial, ?_⟩
  intro r w₂ h₂
  have hw₂ := quiet_standing _ _ _ _ rfl hw₁ h₂
  have hr : r = .ok c₀ := (Prod.mk.inj h₂).1.symm.trans (congrArg Prod.fst hload)
  subst hr
  refine Program.safe_perform.2 ⟨trivial, ?_⟩
  intro r w₃ h₃
  have hw₃ := quiet_standing _ _ _ _ rfl hw₂ h₃
  obtain rfl : now = r := (Prod.mk.inj h₃).1
  have hrequest : d.request? s.template = some (requestAt s g none) := by
    rw [Decision.request?_of_active s.template hg.active, hg.window, hg.token]
    rfl
  simp only [hg.plan, hrequest]
  apply (safe_begin quiet_standing (fun _ _ => trivial) hw₃).bind
  intro tally w₄ hw₄
  exact ⟨⟨tally, _, rfl⟩, hw₄⟩

theorem run_plan {c₀ : Option Checkpoint} {d : Decision} (hg : g.Planned s c₀ now d)
    (hload : Store.load w.store s.key = (.ok c₀, w.store)) (hw : Standing s g none w) :
    ∃ tally report w', (plan s .empty).run (calm g.repo.answer now) w =
      ((.paging tally (requestAt s g none), report), w') ∧ Standing s g none w' := by
  obtain ⟨⟨tally, report, hst⟩, hw'⟩ := (safe_plan_standing .empty hg hload hw).run fun _ _ => rfl
  exact ⟨tally, report, _, Prod.ext hst rfl, hw'⟩

/-- An undisturbed cycle ends, and it has arrived. -/
theorem follow_undisturbed {c₀ : Option Checkpoint} {d : Decision} (hrepo : g.repo.Complete)
    (hg : g.Planned s c₀ now d) (hload : Store.load w.store s.key = (.ok c₀, w.store))
    (hw : Standing s g none w) :
    ∃ report w', (course s).follow (calm g.repo.answer now) (g.pages.length + 1) start w =
      ((.ended, report), w') ∧ Through s g w' := by
  obtain ⟨tally, report, w', hrun, hw'⟩ := run_plan hg hload hw
  rw [Course.follow]
  simp only [course, start, hrun]
  exact follow_standing hrepo hg.datable hg.pages tally report hw'

/-- Before anything was asked, an undisturbed cycle stands before the first page. -/
theorem standing_start {c₀ : Option Checkpoint} {d : Decision} {store : MemoryStore} {shelf : Shelf}
    (hg : g.Planned s c₀ now d) (hload : Store.load store s.key = (.ok c₀, store))
    (hdocument : store.document? s.key .checkpoint = g.document) (hkept : shelf.document? = g.kept)
    (hpending : shelf.pending = []) (hflush : shelf.failAt = none) (hopen : shelf.closed = false) :
    Standing s g none ⟨store, shelf, []⟩ := by
  obtain ⟨hkey, hloads⟩ := MemoryStore.able_of_load hload
  exact ⟨⟨hkey, hloads, hflush, hopen⟩, g.pages, hg.pages, .start hdocument hkept hpending⟩

/-! ## The result -/

/-- The repository of the sample. -/
def sampleRepository : Repository := fun _ token => samplePage token

/-- The repository of the sample, which is busy at first. -/
def sampleDisturbed (w : Surroundings MemoryStore) : (e : Effect) → e.Reply × Surroundings MemoryStore :=
  calm (fun q => if w.log.length < 10 then .ok ⟨500, [], none, none, none⟩ else sampleRepository.answer q) ⟨0, 0⟩ w

/-- A first cycle of the sample fails. -/
def sampleFailed : (Cycle × Report) × Surroundings MemoryStore :=
  (course sample).follow sampleDisturbed 4 start sampleStart

/-- A second cycle gets through. -/
def sampleThrough : (Cycle × Report) × Surroundings MemoryStore :=
  (course sample).follow sampleDisturbed 4 start sampleFailed.2

/-- However a harvest was disturbed, at the moment at which it got through it leaves the checkpoint and
the documents that one undisturbed cycle leaves, from the same checkpoint, at the same time and with the
same documents before. -/
theorem converges {repo : Repository} (hrepo : repo.Complete) {c : Option Checkpoint} {d : Decision}
    {pages : List Page} {store : MemoryStore} {shelf : Shelf} (hload : Store.load store s.key = (.ok c, store))
    (hplan : s.planner.plan? c now = some d) (hactive : d.isWait = false) (htoken : d.token = none)
    (hwindow : d.window.Datable) (hpages : repo.Pages d.window none pages) (hpending : shelf.pending = [])
    (hflush : shelf.failAt = none) (hopen : shelf.closed = false) :
    ∃ report w₁, (course s).follow (calm repo.answer now) (pages.length + 1) start ⟨store, shelf, []⟩ =
        ((.ended, report), w₁) ∧ Completed s w₁ ∧
      ∀ p w, (course s).Reaches (Harvest s repo) Crash start ⟨store, shelf, []⟩ p w → Completed s w →
        w.document s.key = w₁.document s.key ∧ w.shelf.document? = w₁.shelf.document? := by
  let g : Campaign := ⟨repo, d.window, pages, shelf.document?, store.document? s.key .checkpoint⟩
  have hg : g.Planned s c now d :=
    ⟨FaithfulStore.load_ok hload, hplan, htoken, hactive, rfl, hwindow, hpages⟩
  obtain ⟨report, w₁, hfollow, hthrough, harrived⟩ :=
    follow_undisturbed hrepo hg hload (standing_start hg hload rfl rfl hpending hflush hopen)
  -- both have arrived, and there is only one place to arrive at
  refine ⟨report, w₁, hfollow, hthrough, ?_⟩
  intro p w hreach hdone
  have harrived' : Arrived s g w := arrived_of_completed hg rfl rfl hpending hreach hdone
  exact ⟨harrived'.document.trans harrived.document.symm, harrived'.shelf.trans harrived.shelf.symm⟩

theorem converges_sample :
    ∃ report w₁, (course sample).follow (calm sampleRepository.answer ⟨0, 0⟩) 3 start sampleStart =
        ((.ended, report), w₁) ∧ Completed sample w₁ ∧
      ∃ p w, (course sample).Reaches (Harvest sample sampleRepository) Crash start sampleStart p w ∧
        Completed sample w ∧ w.document "source" = w₁.document "source" ∧
        w.shelf.document? = w₁.shelf.document? := by
  have hload : Store.load sampleStart.store sample.key = (.ok none, sampleStart.store) := by rfl
  have hplan : sample.planner.plan? none ⟨0, 0⟩ = some (.first ⟨none, none⟩) := rfl
  have hrepo : sampleRepository.Complete := by
    rintro window (_ | _)
    · exact ⟨rfl, rfl⟩
    · exact ⟨rfl, rfl⟩
  have hwindow : (Decision.first ⟨none, none⟩).window.Datable := by
    constructor
    · intro _ h
      cases h
    · intro _ h
      cases h
  have hpages : sampleRepository.Pages ⟨none, none⟩ none [samplePage none, samplePage (some "more")] :=
    .next rfl (.last rfl)
  have hshelf : sampleStart.shelf.pending = [] ∧ sampleStart.shelf.failAt = none ∧
      sampleStart.shelf.closed = false := ⟨rfl, rfl, rfl⟩
  obtain ⟨report, w₁, hfollow, hdone₁, hall⟩ := converges hrepo hload hplan rfl rfl hwindow hpages
    hshelf.1 hshelf.2.1 hshelf.2.2
  have hanswers (w : Surroundings MemoryStore) (e : Effect) :
      Replies sampleRepository.Disturbed w e (sampleDisturbed w e).1 (sampleDisturbed w e).2 := by
    apply replies_calm
    intro q
    split
    · exact .inr (by simp [Outcome.of, Outcome.ofPage])
    · exact .inl rfl
  have hfailed : (course sample).Reaches (Replies sampleRepository.Disturbed) Crash start sampleStart
      (.done sampleFailed.1) sampleFailed.2 := Course.Reaches.follow hanswers 4 .start
  have hended : course sample sampleFailed.1 = none := by rfl
  have hthrough := (hfailed.again hended).follow hanswers 4
  have hdone : Completed sample sampleThrough.2 := by decide +kernel
  -- the moment at which it got through lies somewhere before the end
  obtain ⟨p, w, hreach, hdone⟩ : ∃ p w, (course sample).Reaches (Harvest sample sampleRepository) Crash
      start sampleStart p w ∧ Completed sample w := by
    rcases hthrough.until (Completed sample) with h | h
    · exact ⟨_, _, h, hdone⟩
    · exact h
  exact ⟨report, w₁, hfollow, hdone₁, p, w, hreach, hdone, hall p w hreach hdone⟩

end Cycle

end Harvesting
