import Harvesting.Proofs.Cycle.Surroundings
import Harvesting.Proofs.Plan.Planner

/-!
# Interrupted harvests converge

A repository answers each request with one and the same page, unless it fails. However often a harvest
of a window is disturbed, when it has got through, the shelf and the checkpoint are those of a harvest
that was never disturbed.

Pages may be written more than once and out of order, and documents of a failed flush may be written
with a later page. What matters is that whatever was written too early is written again by a page that
is still to come.

* `Pages` — the rest of a result set from a token on;
* `Positioned` — the invariant: ids that the rest of the pages does not write have their last document
  already, and only ids that it writes wait for a flush;
* `Arrived` — shelf and store are as after a harvest of all pages in order;
* `Cycle.onCourse_invariant` — every stage keeps the invariant until the result set is through;
* `Cycle.arrived_of_completed` — the moment at which a checkpoint says so, the harvest has arrived.
-/

namespace Harvesting

/-- The page for each window and token. -/
abbrev Repository := Window → Option String → Page

namespace Repository

/-- The pages of a window from a token on, up to one without a token. -/
inductive Pages (repo : Repository) (window : Window) : Option String → List Page → Prop where
  | last {token : Option String} : (repo window token).token = none →
      Pages repo window token [repo window token]
  | next {token : Option String} {t : String} {rest : List Page} : (repo window token).token = some t →
      Pages repo window (some t) rest → Pages repo window token (repo window token :: rest)

/-- Every page is given with status 200 and without an error; `noRecordsMatch` is none, but tells of an
empty page. -/
def Complete (repo : Repository) : Prop := ∀ window token, (repo window token).status = 200 ∧
  Outcome.ofPage (repo window token) = .success

/-- The repository gives its page, or something that is no success. -/
def Disturbed (repo : Repository) (q : Request) (answer : Except SourceFault Page) : Prop :=
  answer = .ok (repo q.window q.token) ∨ Outcome.of answer ≠ .success

/-- The repository gives its page. -/
def answer (repo : Repository) (q : Request) : Except SourceFault Page := .ok (repo q.window q.token)

end Repository

/-- The documents of pages, in order. -/
def CycleSettings.yieldAll (s : CycleSettings) (pages : List Page) : List Document :=
  pages.flatMap fun p => s.yield p.records

/-- The ids of the documents of pages. -/
def CycleSettings.ids (s : CycleSettings) (pages : List Page) : List String :=
  (s.yieldAll pages).map (·.id)

variable {s : CycleSettings}

theorem yieldAll_append (a b : List Page) : s.yieldAll (a ++ b) = s.yieldAll a ++ s.yieldAll b :=
  List.flatMap_append

theorem ids_cons (p : Page) (rest : List Page) :
    s.ids (p :: rest) = (s.yield p.records).map (·.id) ++ s.ids rest := by
  simp [CycleSettings.ids, CycleSettings.yieldAll]

theorem ids_suffix {rest pages : List Page} (h : rest <:+ pages) {id : String} (hid : id ∈ s.ids rest) :
    id ∈ s.ids pages := by
  obtain ⟨before, rfl⟩ := h
  rw [CycleSettings.ids, yieldAll_append, List.map_append]
  exact List.mem_append_right _ hid

/-! ## Where a harvest stands -/

/-- A window to be harvested: its pages, and what shelf and store hold before. -/
structure Campaign where
  repo : Repository
  window : Window
  pages : List Page
  kept : String → Option Document
  document : Option Json

namespace Campaign

/-- The documents by their ids when all pages were written in order. -/
def final (s : CycleSettings) (g : Campaign) : String → Option Document := overlay (s.yieldAll g.pages) g.kept

/-- The checkpoint when all pages were written. -/
def checkpoint (g : Campaign) : Checkpoint := ⟨none, g.window.lower, g.window.upper, none, 200⟩

/-- The pages that are still to come when the store holds a document. -/
inductive Stored (g : Campaign) : Option Json → List Page → Prop where
  | untouched : Stored g g.document g.pages
  | unclean {c : Checkpoint} : c.window = g.window → c.isClean = false →
      Stored g (some c.toDocument) g.pages
  | going {c : Checkpoint} {t : String} {rest : List Page} : c.window = g.window → c.isClean = true →
      c.token = some t → g.repo.Pages g.window (some t) rest → Stored g (some c.toDocument) rest

end Campaign

/-- The window of a campaign is what the planner enters, from its start. -/
structure Campaign.Planned (s : CycleSettings) (g : Campaign) (c : Option Checkpoint) (now : Instant)
    (d : Decision) : Prop where
  reads : FaithfulStore.Reads g.document c
  plan : s.planner.plan? c now = some d
  token : d.token = none
  active : d.isWait = false
  window : d.window = g.window
  datable : g.window.Datable
  pages : g.repo.Pages g.window none g.pages

/-- The event stores a clean checkpoint without a token for the source. -/
def Completes (s : CycleSettings) : Event → Prop
  | ⟨.save key c, .ok ()⟩ => key = s.key ∧ c.isClean = true ∧ c.token = none
  | _ => False

instance : DecidablePred (Completes s)
  | ⟨.save key c, .ok ()⟩ => inferInstanceAs (Decidable (key = s.key ∧ c.isClean = true ∧ c.token = none))
  | ⟨.save _ _, .error _⟩ | ⟨.load _, _⟩ | ⟨.loadTally _, _⟩ | ⟨.saveTally _ _, _⟩ | ⟨.request _ _, _⟩
  | ⟨.index _, _⟩ | ⟨.flush, _⟩ | ⟨.close, _⟩ | ⟨.cancelled, _⟩ | ⟨.pause _, _⟩ | ⟨.clock, _⟩
  | ⟨.wallClock, _⟩ => isFalse id

variable {σ : Type}

/-- A clean checkpoint without a token was stored. -/
def Completed (s : CycleSettings) (w : Surroundings σ) : Prop := ∃ ev ∈ w.log, Completes s ev

instance (w : Surroundings σ) : Decidable (Completed s w) :=
  inferInstanceAs (Decidable (∃ ev ∈ w.log, Completes s ev))

theorem completed_after {w w' : Surroundings σ} {ev : Event} (h : w'.log = w.log ++ [ev]) :
    Completed s w' ↔ Completed s w ∨ Completes s ev := by
  simp only [Completed, h, List.mem_append, List.mem_singleton, or_and_right, exists_or, exists_eq_left]

/-- How far the harvest got: `rest` are the pages that are still to come after the stored checkpoint. -/
structure Positioned [FaithfulStore σ] (s : CycleSettings) (g : Campaign) (w : Surroundings σ)
    (rest : List Page) : Prop where
  unfinished : ¬ Completed s w
  stored : g.Stored (w.document s.key) rest
  suffix : rest <:+ g.pages
  settled : ∀ id, id ∉ s.ids rest → w.shelf.document? id = g.final s id
  pending : ∀ d ∈ w.shelf.pending, d.id ∈ s.ids rest

/-- The harvest got through: everything is as after a harvest in order. -/
structure Arrived [FaithfulStore σ] (s : CycleSettings) (g : Campaign) (w : Surroundings σ) : Prop where
  document : w.document s.key = some g.checkpoint.toDocument
  shelf : w.shelf.document? = g.final s

/-- The harvest is on its way, or it got through. -/
def OnCourse [FaithfulStore σ] (s : CycleSettings) (g : Campaign) (w : Surroundings σ) : Prop :=
  (∃ rest, Positioned s g w rest) ∨ Completed s w ∧ Arrived s g w

/-- The harvest stands before the page of a token. -/
def Before [FaithfulStore σ] (s : CycleSettings) (g : Campaign) (token : Option String)
    (w : Surroundings σ) : Prop :=
  ∃ rest, g.repo.Pages g.window token rest ∧ Positioned s g w rest

namespace Positioned

open Surroundings

variable [FaithfulStore σ] {g : Campaign} {w w' : Surroundings σ} {p : Page} {rest : List Page}

/-- Before anything was asked, all pages are to come. -/
theorem start {store : σ} {shelf : Shelf} (hdocument : FaithfulStore.held store s.key .checkpoint = g.document)
    (hshelf : shelf.document? = g.kept) (hpending : shelf.pending = []) :
    Positioned s g (⟨store, shelf, []⟩ : Surroundings σ) g.pages := by
  refine ⟨?_, ?_, List.suffix_refl _, ?_, ?_⟩
  · intro hdone
    obtain ⟨ev, hev, -⟩ := hdone
    exact absurd hev List.not_mem_nil
  · rw [document, hdocument]
    exact .untouched
  · intro id hid
    rw [hshelf, Campaign.final, overlay_of_notMem hid]
  · intro d hd
    rw [hpending] at hd
    exact absurd hd List.not_mem_nil

theorem onCourse (h : Positioned s g w rest) : OnCourse s g w := .inl ⟨rest, h⟩

/-- The position stays when the store keeps its document, and waiting documents will be written again. -/
theorem keep (h : Positioned s g w rest) (hpending : ∀ d ∈ w'.shelf.pending, d.id ∈ s.ids rest)
    (hcommitted : w'.shelf.committed = w.shelf.committed)
    (hdocument : w'.document s.key = w.document s.key) {ev : Event} (hlog : w'.log = w.log ++ [ev])
    (hev : ¬ Completes s ev) : Positioned s g w' rest where
  unfinished hdone := by
    rcases (completed_after hlog).1 hdone with hdone | hdone
    · exact h.unfinished hdone
    · exact hev hdone
  stored := hdocument ▸ h.stored
  suffix := h.suffix
  settled id hid := by
    rw [Shelf.document?, hcommitted]
    exact h.settled id hid
  pending := hpending

theorem still (h : Positioned s g w rest) (hstill : Still s.key w w') {ev : Event}
    (hlog : w'.log = w.log ++ [ev]) (hev : ¬ Completes s ev) : Positioned s g w' rest :=
  h.keep (fun d hd => h.pending d (hstill.pending ▸ hd)) hstill.committed hstill.document hlog hev

/-- A crash only loses documents that will be written again. -/
theorem crash (h : Positioned s g w rest) (hcrash : Crash w w') : Positioned s g w' rest := by
  rw [hcrash]
  exact ⟨h.unfinished, h.stored, h.suffix, h.settled, fun d hd => absurd hd List.not_mem_nil⟩

/-- A flush of waiting documents changes only ids that will be written again. -/
theorem flush (h : Positioned s g w rest) {allowed : Request → Except SourceFault Page → Prop}
    {r : Except SinkFault Unit} (hr : Replies allowed w .flush r w') : Positioned s g w' rest := by
  rcases r with f | ⟨⟩
  · exact h.still (still_of_flush_error hr) hr.1 id
  · obtain ⟨hpending, hdocument, hstored, -⟩ := of_flush s.key hr
    refine ⟨?_, hstored ▸ h.stored, h.suffix, ?_, ?_⟩
    · intro hdone
      exact ((completed_after hr.1).1 hdone).elim h.unfinished id
    · intro id hid
      -- whatever waits belongs to pages that are still to come, so a settled id is not among it
      have hother : id ∉ w.shelf.pending.map (·.id) := by
        intro hmem
        obtain ⟨d, hd, rfl⟩ := List.mem_map.1 hmem
        exact hid (h.pending d hd)
      rw [hdocument, overlay_of_notMem hother]
      exact h.settled id hid
    · intro d hd
      rw [hpending] at hd
      exact absurd hd List.not_mem_nil

/-- After an unclean checkpoint the whole result set is to come. -/
theorem save_unclean (h : Positioned s g w rest)
    {allowed : Request → Except SourceFault Page → Prop} {c : Checkpoint} {r : Except Store.Fault Unit}
    (hwindow : c.window = g.window) (hclean : c.isClean = false)
    (hr : Replies allowed w (.save s.key c) r w') : ∃ rest', Positioned s g w' rest' := by
  rcases r with f | ⟨⟩
  · exact ⟨rest, h.still (still_of_save_error hr) hr.1 id⟩
  · obtain ⟨hdocument, hshelf, -⟩ := of_save hr
    -- more pages are to come than before, so fewer ids have to be settled
    have hlater : ∀ id, id ∈ s.ids rest → id ∈ s.ids g.pages := by
      intro id hid
      exact ids_suffix h.suffix hid
    refine ⟨g.pages, ?_, ?_, List.suffix_refl _, ?_, ?_⟩
    · intro hdone
      rcases (completed_after hr.1).1 hdone with hdone | ⟨-, hclean', -⟩
      · exact h.unfinished hdone
      · rw [hclean] at hclean'
        cases hclean'
    · rw [hdocument]
      exact .unclean hwindow hclean
    · intro id hid
      rw [hshelf]
      apply h.settled
      intro hid'
      exact hid (hlater id hid')
    · intro d hd
      rw [hshelf] at hd
      exact hlater _ (h.pending d hd)

/-- A page whose documents wait behind others settles the ids that only it was still to write. -/
theorem settle (h : Positioned s g w (p :: rest)) {base : List Document}
    (hpending : w.shelf.pending = base ++ s.yield p.records)
    (hdocument : w'.shelf.document? = overlay w.shelf.pending w.shelf.document?) {id : String}
    (hid : id ∉ s.ids rest) : w'.shelf.document? id = g.final s id := by
  obtain ⟨before, hbefore⟩ := h.suffix
  rw [hdocument]
  by_cases hpage : id ∈ (s.yield p.records).map (·.id)
  · -- the last document of the id is one of this page, here and in a harvest in order
    obtain ⟨d, hd⟩ := exists_overlay_of_mem hpage
    have hfinal : g.final s id = some d := by
      have hall : s.yieldAll g.pages = (s.yieldAll before ++ s.yield p.records) ++ s.yieldAll rest := by
        rw [← hbefore, yieldAll_append, List.append_assoc]
        rfl
      rw [Campaign.final, hall, overlay_append, overlay_of_notMem hid, overlay_append, hd]
    rw [hpending, overlay_append, hd, hfinal]
  · -- neither this page nor what waits before it writes the id
    have hother : id ∉ s.ids (p :: rest) := by
      rw [ids_cons, List.mem_append]
      intro hmem
      exact hmem.elim hpage hid
    have hwaiting : id ∉ w.shelf.pending.map (·.id) := by
      intro hmem
      obtain ⟨d, hd, rfl⟩ := List.mem_map.1 hmem
      exact hother (h.pending d hd)
    rw [overlay_of_notMem hwaiting]
    exact h.settled id hother

/-- A clean checkpoint for a page that is on the shelf moves on behind the page. -/
theorem save_clean (h : Positioned s g w (p :: rest)) {c : Checkpoint}
    {allowed : Request → Except SourceFault Page → Prop} {r : Except Store.Fault Unit} {t : String}
    (hsettled : ∀ id, id ∉ s.ids rest → w.shelf.document? id = g.final s id) (hpending : w.shelf.pending = [])
    (hwindow : c.window = g.window) (hclean : c.isClean = true) (htoken : c.token = some t)
    (hpages : g.repo.Pages g.window (some t) rest) (hr : Replies allowed w (.save s.key c) r w') :
    (r = .ok () → Positioned s g w' rest) ∧ ∃ rest', Positioned s g w' rest' := by
  rcases r with f | ⟨⟩
  · exact ⟨nofun, _, h.still (still_of_save_error hr) hr.1 id⟩
  · obtain ⟨hdocument, hshelf, -⟩ := of_save hr
    have hnext : Positioned s g w' rest := by
      refine ⟨?_, ?_, (List.suffix_cons p rest).trans h.suffix, ?_, ?_⟩
      · intro hdone
        rcases (completed_after hr.1).1 hdone with hdone | ⟨-, -, hnone⟩
        · exact h.unfinished hdone
        · cases htoken.symm.trans hnone
      · rw [hdocument]
        exact .going hwindow hclean htoken hpages
      · intro id hid
        rw [hshelf]
        exact hsettled id hid
      · intro d hd
        rw [hshelf, hpending] at hd
        exact absurd hd List.not_mem_nil
    exact ⟨fun _ => hnext, rest, hnext⟩

/-- The checkpoint of the last page ends the harvest. -/
theorem save_last (h : Positioned s g w [p]) {allowed : Request → Except SourceFault Page → Prop}
    {r : Except Store.Fault Unit} (hsettled : ∀ id, w.shelf.document? id = g.final s id)
    (hr : Replies allowed w (.save s.key g.checkpoint) r w') :
    OnCourse s g w' ∧ (r = .ok () → Completed s w' ∧ Arrived s g w') := by
  rcases r with f | ⟨⟩
  · exact ⟨(h.still (still_of_save_error hr) hr.1 id).onCourse, nofun⟩
  · obtain ⟨hdocument, hshelf, -⟩ := of_save hr
    have harrived : Completed s w' ∧ Arrived s g w' := by
      refine ⟨(completed_after hr.1).2 (.inr ⟨rfl, rfl, rfl⟩), hdocument, ?_⟩
      rw [hshelf]
      exact funext hsettled
    exact ⟨.inr harrived, fun _ => harrived⟩

end Positioned

/-! ## The stages of a disturbed harvest -/

namespace Cycle

open Surroundings

variable [FaithfulStore σ] {g : Campaign} {w w' : Surroundings σ} {token : Option String}

/-- The answers of a disturbed harvest, up to the moment at which it gets through. -/
abbrev Harvest (s : CycleSettings) (repo : Repository) : Answers (Surroundings σ) :=
  Until (Completed s) (Replies repo.Disturbed)

/-- The request for the page of a token. -/
def requestAt (s : CycleSettings) (g : Campaign) (token : Option String) : Request :=
  { s.template with window := g.window, token := token }

theorem not_completes_of_quiet {e : Effect} {r : e.Reply} (h : e.isQuiet = true) :
    ¬ Completes s ⟨e, r⟩ := by
  cases e <;> first | exact id | cases h

theorem quiet_before : Quiet (Harvest s g.repo) (Before (σ := σ) s g token) := by
  intro w e r w' hquiet hw hr
  obtain ⟨rest, hpages, hpos⟩ := hw
  obtain ⟨-, hr⟩ := hr
  exact ⟨rest, hpages, hpos.still (still_of_quiet hquiet hr) hr.1 (not_completes_of_quiet hquiet)⟩

theorem quiet_onCourse : Quiet (Harvest s g.repo) (OnCourse (σ := σ) s g) := by
  intro w e r w' hquiet hw ⟨hopen, hr⟩
  rcases hw with ⟨rest, hpos⟩ | ⟨hdone, -⟩
  · exact (hpos.still (still_of_quiet hquiet hr) hr.1 (not_completes_of_quiet hquiet)).onCourse
  · exact absurd hdone hopen

theorem Before.onCourse (h : Before s g token w) : OnCourse s g w := by
  obtain ⟨rest, -, hpos⟩ := h
  exact hpos.onCourse

/-- The documents of the next page are among those still to come. -/
theorem mem_ids_of_pages {rest : List Page} (h : g.repo.Pages g.window token rest) {d : Document}
    (hd : d ∈ s.yield (g.repo g.window token).records) : d.id ∈ s.ids rest := by
  cases h with
  | last _ =>
      rw [ids_cons]
      exact List.mem_append_left _ (List.mem_map.2 ⟨d, hd, rfl⟩)
  | next _ _ =>
      rw [ids_cons]
      exact List.mem_append_left _ (List.mem_map.2 ⟨d, hd, rfl⟩)

/-- What is known while a page of a disturbed harvest is delivered. -/
abbrev Delivering (s : CycleSettings) (g : Campaign) (token : Option String) (p : Page)
    (ds : List Document) (w : Surroundings σ) : Prop :=
  p = g.repo g.window token ∧ Before s g token w ∧ ∃ base, w.shelf.pending = base ++ ds

/-- An answer to a request leaves the harvest where it stands. -/
theorem before_of_request (hw : Before s g token w) {q : Request} {limit : Span}
    {answer : Except SourceFault Page} (hr : Harvest s g.repo w (.request q limit) answer w') :
    Before s g token w' := by
  obtain ⟨rest, hpages, hpos⟩ := hw
  rcases answer with f | p
  · exact ⟨rest, hpages, hpos.still (still_of_request_error hr.2) hr.2.1 id⟩
  · obtain ⟨-, hshelf, hdocument, -⟩ := of_request s.key hr.2
    have hpending : ∀ d ∈ w'.shelf.pending, d.id ∈ s.ids rest := by
      rw [hshelf]
      exact hpos.pending
    exact ⟨rest, hpages, hpos.keep hpending (by rw [hshelf]) hdocument hr.2.1 id⟩

theorem paging_before : Paging (Harvest s g.repo) (OnCourse (σ := σ) s g) (Before s g token)
    (Before s g token) (Before s g token) (Delivering s g token) s (requestAt s g token) where
  soundK w hw := Before.onCourse hw
  soundT w hw := Before.onCourse hw
  soundJ p ds w hw := Before.onCourse hw.2.1
  quietK := quiet_before
  quietT := quiet_before
  again w hw := hw
  twice w hw := hw
  cancelled w w' hw hr := quiet_before _ _ _ _ rfl hw hr
  putOff w answer w' _ hw hr _ := before_of_request hw hr
  failed w answer w' _ _ hw hr _ := before_of_request hw hr
  answered w p w' hw hr hp := by
    refine ⟨?_, before_of_request hw hr, w'.shelf.pending, (List.append_nil _).symm⟩
    obtain ⟨hgiven | hfailed, -⟩ := of_request s.key hr.2
    · exact Except.ok.inj hgiven
    · exact absurd hp hfailed
  taken w p ds d w' hw hd hr := by
    obtain ⟨rfl, ⟨rest, hpages, hpos⟩, base, hbase⟩ := hw
    obtain ⟨hpending, hcommitted, hdocument, -⟩ := of_index s.key hr.2
    have hlater : ∀ d' ∈ w'.shelf.pending, d'.id ∈ s.ids rest := by
      intro d' hd'
      rw [hpending] at hd'
      rcases List.mem_append.1 hd' with hd' | hd'
      · exact hpos.pending d' hd'
      · rw [List.mem_singleton.1 hd']
        exact mem_ids_of_pages hpages hd
    refine ⟨rfl, ⟨rest, hpages, hpos.keep hlater hcommitted hdocument hr.2.1 id⟩, base, ?_⟩
    rw [hpending, hbase, List.append_assoc]
  refused w p ds d f w' hw hd hr := by
    obtain ⟨-, ⟨rest, hpages, hpos⟩, -⟩ := hw
    exact ⟨rest, hpages, hpos.still (still_of_index_error hr.2) hr.2.1 id⟩

/-- A clean checkpoint for a page leads on to the next page, or to the end. -/
theorem saved_clean {a : Attempt} {flushed : Except SinkFault Unit} {saved : Except Store.Fault Unit}
    {w₁ w₂ : Surroundings σ} (h : Attempted (Before s g token) (Delivering s g token) s a w)
    (hclean : (checkpointAfter (requestAt s g token) a flushed).isClean = true)
    (h₁ : Harvest s g.repo w .flush flushed w₁)
    (h₂ : Harvest s g.repo w₁ (.save s.key (checkpointAfter (requestAt s g token) a flushed)) saved w₂) :
    OnCourse s g w₂ ∧ (saved = .ok () → match tokenAfter a flushed with
      | some t => (g.repo g.window token).token = some t ∧ Before s g (some t) w₂
      | none => Completed s w₂ ∧ Arrived s g w₂) := by
  obtain ⟨hstatus, herror, rfl⟩ := isClean_checkpointAfter.1 hclean
  have htoken := tokenAfter_of_clean hclean
  cases h with
  | failed _ => cases herror
  | given hp hgiven =>
      obtain ⟨rfl, ⟨rest, hpages, hpos⟩, base, hbase⟩ := hgiven
      obtain ⟨hpending, hdocument, -⟩ := of_flush s.key h₁.2
      have hpos₁ := hpos.flush h₁.2
      cases hpages with
      | last hlast =>
          -- the pages are through: what is saved is the checkpoint of the whole campaign
          have hcheckpoint : checkpointAfter (requestAt s g token)
              ⟨(g.repo g.window token).status, none, (g.repo g.window token).token⟩ (.ok ()) = g.checkpoint := by
            have hstatus' : ((g.repo g.window token).status : Int) = 200 := hstatus
            rw [checkpointAfter, htoken]
            simp only [hlast, hstatus']
            rfl
          rw [hcheckpoint] at h₂
          have hsettled : ∀ id, w₁.shelf.document? id = g.final s id := by
            intro id
            apply hpos.settle hbase hdocument
            simp [CycleSettings.ids, CycleSettings.yieldAll]
          obtain ⟨hend, harrived⟩ := hpos₁.save_last hsettled h₂.2
          rw [htoken, hlast]
          exact ⟨hend, harrived⟩
      | next hnext hrest =>
          obtain ⟨hgoing, rest', hrest'⟩ := hpos₁.save_clean (fun id hid => hpos.settle hbase hdocument hid)
            hpending rfl hclean (htoken.trans hnext) hrest h₂.2
          rw [htoken, hnext]
          refine ⟨hrest'.onCourse, ?_⟩
          intro hsaved
          exact ⟨rfl, _, hrest, hgoing hsaved⟩

theorem safe_persist_before {a : Attempt} (report : Report)
    (h : Attempted (Before s g token) (Delivering s g token) s a w) :
    Program.Safe (Harvest s g.repo) (OnCourse s g)
      (Dealt (fun _ => OnCourse s g) (fun t _ => Before s g (some t)) report)
      (persist s (requestAt s g token) a) w := by
  have hbefore : Before s g token w := by
    cases h with
    | failed hw => exact hw
    | given _ hw => exact hw.2.1
  obtain ⟨rest, hpages, hpos⟩ := hbefore
  refine safe_persist.2 ⟨hpos.onCourse, ?_⟩
  intro flushed w₁ h₁
  have hpos₁ := hpos.flush h₁.2
  refine ⟨hpos₁.onCourse, ?_⟩
  intro saved w₂ h₂
  cases hclean : (checkpointAfter (requestAt s g token) a flushed).isClean with
  | true =>
      obtain ⟨hend, hnext⟩ := saved_clean h hclean h₁ h₂
      rw [Dealt]
      split
      · next t herror htoken =>
        have hsaved := hnext (firstFault_eq_none.1 herror).2
        rw [show tokenAfter a flushed = some t from htoken] at hsaved
        exact hsaved.2
      · exact hend
  | false =>
      obtain ⟨rest', hpos₂⟩ := hpos₁.save_unclean rfl hclean h₂.2
      rw [Dealt]
      split
      · next t _ htoken =>
        have hclean' : (checkpointAfter (requestAt s g token) a flushed).isClean = true :=
          (clean_of_tokenAfter htoken).1
        cases hclean.symm.trans hclean'
      · exact hpos₂.onCourse

/-- Whatever the time, a cycle of the campaign starts where the stored checkpoint stands. -/
theorem before_of_plan {c₀ c : Option Checkpoint} {start now : Instant} {d₀ d : Decision} {q : Request}
    {rest : List Page} (hg : g.Planned s c₀ start d₀) (hpos : Positioned s g w rest)
    (hreads : FaithfulStore.Reads (w.document s.key) c) (hplan : s.planner.plan? c now = some d)
    (hrequest : d.request? s.template = some q) :
    ∃ token, q = requestAt s g token ∧ Before s g token w := by
  have hfollows := Planner.follows_plan? hplan
  have hd : d ≠ .wait := by
    rintro rfl
    cases hrequest
  have hq := Decision.eq_of_request? hrequest
  have hstored := hpos.stored
  generalize w.document s.key = doc at hreads hstored
  -- the three checkpoints that can be stored: the one of the start, an unclean one, one with a token
  cases hstored with
  | untouched =>
      obtain rfl := hg.reads.unique hreads
      have hd₀ : d₀ ≠ .wait := by
        rintro rfl
        cases hg.active
      obtain rfl := (Planner.follows_plan? hg.plan).unique hfollows hd₀ hd
      rw [hg.window, hg.token] at hq
      exact ⟨none, hq, g.pages, hg.pages, hpos⟩
  | unclean hwindow hclean =>
      obtain ⟨c', hread, rfl⟩ := hreads
      rw [Checkpoint.eq_of_ofDocument (hwindow ▸ hg.datable.whole) hread] at hfollows
      cases hfollows with
      | again _ =>
          rw [Decision.window, hwindow] at hq
          exact ⟨none, hq, g.pages, hg.pages, hpos⟩
      | resume hclean' _ => cases hclean.symm.trans hclean'
      | advance hclean' _ _ _ _ => cases hclean.symm.trans hclean'
      | wait => exact absurd rfl hd
  | going hwindow hclean htoken hpages =>
      obtain ⟨c', hread, rfl⟩ := hreads
      rw [Checkpoint.eq_of_ofDocument (hwindow ▸ hg.datable.whole) hread] at hfollows
      cases hfollows with
      | resume _ htoken' =>
          cases htoken.symm.trans htoken'
          rw [Decision.window, hwindow] at hq
          exact ⟨some _, hq, rest, hpages, hpos⟩
      | again hagain => cases htoken.symm.trans (hagain hclean).1
      | advance _ hnone _ _ _ => cases htoken.symm.trans hnone
      | wait => exact absurd rfl hd

/-- Before each stage: a request is for the page at which the harvest stands. -/
def OnCourseAt (s : CycleSettings) (g : Campaign) : Cycle × Report → Surroundings σ → Prop
  | (.paging _ q, _), w => ∃ token, q = requestAt s g token ∧ Before s g token w
  | _, w => OnCourse s g w

theorem safe_plan_onCourse {c₀ : Option Checkpoint} {start : Instant} {d₀ : Decision} (report : Report)
    (hg : g.Planned s c₀ start d₀) (hw : OnCourse s g w) :
    Program.Safe (Harvest s g.repo) (OnCourse s g) (OnCourseAt s g) (plan s report) w := by
  have hreads (c : Option Checkpoint) : Quiet (Harvest s g.repo)
      (fun w : Surroundings σ => (∃ rest, Positioned s g w rest) ∧
        FaithfulStore.Reads (w.document s.key) c) := by
    intro w e r w' he hw hr
    obtain ⟨⟨rest, hpos⟩, hreads⟩ := hw
    obtain ⟨-, hr⟩ := hr
    have hstill : Still s.key w w' := still_of_quiet he hr
    exact ⟨⟨rest, hpos.still hstill hr.1 (not_completes_of_quiet he)⟩, hstill.document ▸ hreads⟩
  refine (safe_plan report (fun _ hw => hw) quiet_onCourse hreads ?_ ?_ hw).mono ?_
  · rintro c w ⟨⟨rest, hpos⟩, -⟩
    exact hpos.onCourse
  · rintro w c w' (⟨rest, hpos⟩ | ⟨hdone, -⟩) ⟨hopen, hr⟩
    · have hstill : Still s.key w w' := still_of_quiet rfl hr
      exact ⟨⟨rest, hpos.still hstill hr.1 id⟩, hstill.document ▸ reads_of_load hr⟩
    · exact absurd hdone hopen
  · rintro st w ⟨hw, hst⟩
    cases hst with
    | again => exact hw
    | cancelled => exact hw
    | broken => exact hw
    | idle _ => exact hw
    | paging hplan hrequest hL =>
        obtain ⟨⟨rest, hpos⟩, hreads⟩ := hL
        exact before_of_plan hg hpos hreads hplan hrequest

theorem safe_page_onCourse (tally : Tally) (report : Report) (hw : Before s g token w) :
    Program.Safe (Harvest s g.repo) (OnCourse s g) (OnCourseAt s g)
      (page s tally (requestAt s g token) report) w := by
  refine (safe_page (E := fun _ => OnCourse s g) (N := fun t _ => Before s g (some t)) tally
    report paging_before hw (fun _ _ hw => hw) ?_ ?_ ?_).mono ?_
  · intro _
    exact quiet_onCourse
  · intro _ w _ hw
    exact Before.onCourse hw
  · intro report' a w _ ha
    exact safe_persist_before report' ha
  · intro st w hst
    cases hst with
    | ended hw => exact hw
    | continued hw => exact ⟨some _, rfl, hw⟩

/-- Every stage of a disturbed harvest keeps it on course, and so does a crash. -/
theorem onCourse_invariant {c₀ : Option Checkpoint} {now : Instant} {d₀ : Decision}
    (hg : g.Planned s c₀ now d₀) :
    Course.Invariant (Harvest (σ := σ) s g.repo) Crash (course s) start (OnCourse s g) (OnCourseAt s g) where
  sound := by
    rintro ⟨_ | _ | _ | _, report⟩ w hw
    · exact hw
    · obtain ⟨token, -, hbefore⟩ := hw
      exact Before.onCourse hbefore
    · exact hw
    · exact hw
  first w hw := hw
  crash := by
    rintro w w' (⟨rest, hpos⟩ | ⟨hdone, harrived⟩) hcrash
    · exact (hpos.crash hcrash).onCourse
    · rw [hcrash]
      exact .inr ⟨hdone, harrived.document, harrived.shelf⟩
  stage := by
    rintro ⟨_ | ⟨tally, q⟩ | _ | _, report⟩ w p hw hp
    · cases hp
      exact safe_plan_onCourse report hg hw
    · cases hp
      obtain ⟨token, rfl, hbefore⟩ := hw
      exact safe_page_onCourse tally report hbefore
    · cases hp
    · cases hp

/-- A disturbed harvest that got through has arrived. -/
theorem arrived_of_completed {c₀ : Option Checkpoint} {now : Instant} {d₀ : Decision}
    (hg : g.Planned s c₀ now d₀) {store : σ} {shelf : Shelf}
    (hdocument : FaithfulStore.held store s.key .checkpoint = g.document)
    (hshelf : shelf.document? = g.kept) (hpending : shelf.pending = []) {p : Program (Cycle × Report)}
    (hreach : (course s).Reaches (Harvest s g.repo) Crash start ⟨store, shelf, []⟩ p w)
    (hdone : Completed s w) : Arrived s g w := by
  have hstart : Positioned s g (⟨store, shelf, []⟩ : Surroundings σ) g.pages :=
    .start hdocument hshelf hpending
  rcases hreach.invariant (onCourse_invariant hg) hstart.onCourse with ⟨rest, hpos⟩ | ⟨-, harrived⟩
  · exact absurd hdone hpos.unfinished
  · exact harrived

end Cycle

end Harvesting
