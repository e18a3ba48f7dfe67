import Harvesting.Proofs.Cycle.Surroundings
import Harvesting.Proofs.Plan.Planner

/-!
# No loss

Whenever the store holds a clean checkpoint, the repository gave all pages up to it, and every document
of them is on the shelf. This is so at every moment of every run: over any number of cycles, whatever
the repository answers, whichever flushes and saves fail, and wherever the harvest crashes.

* `Chain` — pages of one result set, each asked for with the token of the one before;
* `Harvested` — such a chain is part of the history, and its documents are on the shelf;
* `Sound` — the invariant: a clean checkpoint tells of a harvested chain;
* `Cycle.sound_invariant` — every stage keeps it;
* `Cycle.committed_of_clean` — the result.
-/

namespace Harvesting

/--
Pages of the result set of a window, given for one request after another: the first request has no
token, each next one has the token of the page before. The last page gave `token`.
-/
inductive Chain (template : Request) (window : Window) : List (Request × Page) → Option String → Prop where
  | first {p : Page} : Outcome.ofPage p = .success → p.status = 200 →
      Chain template window [({ template with window := window, token := none }, p)] p.token
  | next {es : List (Request × Page)} {t : String} {p : Page} :
      Chain template window es (some t) → Outcome.ofPage p = .success → p.status = 200 →
      Chain template window (es ++ [({ template with window := window, token := some t }, p)]) p.token

theorem Chain.ne_nil {template : Request} {window : Window} {es : List (Request × Page)} {token : Option String}
    (h : Chain template window es token) : es ≠ [] := by
  cases h <;> simp

variable {σ : Type} {s : CycleSettings}

theorem mem_yield {records : List Record} {d : Document} :
    d ∈ s.yield records ↔ ∃ r ∈ records, ∃ ds, s.documents r = .ok ds ∧ d ∈ ds := by
  rw [CycleSettings.yield, List.mem_flatMap]
  apply exists_congr
  intro r
  apply and_congr_right
  intro _
  cases s.documents r <;> simp [Except.toOption]

/-- The documents of these pages are on the shelf. -/
def Committed (s : CycleSettings) (shelf : Shelf) (es : List (Request × Page)) : Prop :=
  ∀ e ∈ es, ∀ d ∈ s.yield e.2.records, d.id ∈ shelf.committedIds

/-- A chain of pages up to `token` is part of the history, and its documents are on the shelf. -/
def Harvested (s : CycleSettings) (w : Surroundings σ) (window : Window) (token : Option String) : Prop :=
  ∃ es, Chain s.template window es token ∧ es.Sublist w.exchanges ∧ Committed s w.shelf es

/-! ## What can only grow -/

/-- The shelf and the history have lost nothing. -/
structure Grows (w w' : Surroundings σ) : Prop where
  ids : ∀ id ∈ w.shelf.committedIds, id ∈ w'.shelf.committedIds
  exchanges : w.exchanges.Sublist w'.exchanges

theorem Harvested.grow {w w' : Surroundings σ} {window : Window} {token : Option String}
    (h : Harvested s w window token) (hgrow : Grows w w') : Harvested s w' window token := by
  obtain ⟨es, hchain, hsub, hes⟩ := h
  refine ⟨es, hchain, hsub.trans hgrow.exchanges, ?_⟩
  intro e he d hd
  exact hgrow.ids _ (hes e he d hd)

theorem Surroundings.grows_of_crash {w w' : Surroundings σ} (h : Surroundings.Crash w w') : Grows w w' := by
  rw [h]
  exact ⟨fun _ hid => hid, .refl _⟩

theorem Shelf.mem_committedIds_overlay {shelf shelf' : Shelf} {ds : List Document}
    (h : shelf'.document? = overlay ds shelf.document?) {id : String} :
    id ∈ shelf'.committedIds ↔ id ∈ ds.map (·.id) ∨ id ∈ shelf.committedIds := by
  rw [mem_committedIds, mem_committedIds, h]
  by_cases hid : id ∈ ds.map (·.id)
  · obtain ⟨d, hd⟩ := exists_overlay_of_mem hid
    simp [hd, hid]
  · rw [overlay_of_notMem hid]
    simp [hid]

namespace Surroundings

variable [FaithfulStore σ] {allowed : Request → Except SourceFault Page → Prop} {key : String}
  {w w' : Surroundings σ}

theorem Still.grows (h : Still key w w') : Grows w w' := by
  constructor
  · intro id hid
    rw [Shelf.committedIds, h.committed]
    exact hid
  · simp [h.exchanges]

end Surroundings

/-! ## The invariant -/

namespace Cycle

open Surroundings

/-- A clean checkpoint in the store tells of pages that were given and are on the shelf. -/
def Sound [FaithfulStore σ] (s : CycleSettings) (w : Surroundings σ) : Prop :=
  ∀ doc, w.document s.key = some doc → ∃ c : Checkpoint, doc = c.toDocument ∧ c.window.Whole ∧
    (c.isClean = true → Harvested s w c.window c.token)

/-- A request continues what was harvested of its window. -/
def Ready (s : CycleSettings) (w : Surroundings σ) (q : Request) : Prop :=
  ∃ window token, q = { s.template with window := window, token := token } ∧ window.Whole ∧
    ∀ t, token = some t → Harvested s w window (some t)

/-- Before each stage: a request for a page continues what was harvested. -/
def SoundAt [FaithfulStore σ] (s : CycleSettings) : Cycle × Report → Surroundings σ → Prop
  | (.paging _ q, _), w => Sound s w ∧ Ready s w q
  | _, w => Sound s w

/-- A page was given for the request, and the sink took the documents `ds` of it. -/
structure Given (s : CycleSettings) (q : Request) (p : Page) (ds : List Document)
    (w : Surroundings σ) : Prop where
  chain : p.status = 200 → ∃ es, Chain s.template q.window (es ++ [(q, p)]) p.token ∧
    (es ++ [(q, p)]).Sublist w.exchanges ∧ Committed s w.shelf es
  taken : ∀ d ∈ ds, d ∈ w.shelf.pending ∨ d.id ∈ w.shelf.committedIds

section

variable {w w' : Surroundings σ} {q : Request} {p : Page}

theorem Ready.grow (h : Ready s w q) (hgrow : Grows w w') : Ready s w' q := by
  obtain ⟨window, token, hq, hwhole, htoken⟩ := h
  exact ⟨window, token, hq, hwhole, fun t ht => (htoken t ht).grow hgrow⟩

theorem Ready.whole (h : Ready s w q) : q.window.Whole := by
  obtain ⟨window, token, rfl, hwhole, -⟩ := h
  exact hwhole

/-- The first page of a result set and each further one make the chain longer. -/
theorem Ready.given (h : Ready s w q) (hp : Outcome.ofPage p = .success)
    (hexchanges : w'.exchanges = w.exchanges ++ [(q, p)]) (hgrow : Grows w w') : Given s q p [] w' := by
  constructor
  · intro hstatus
    obtain ⟨window, token, rfl, -, htoken⟩ := h
    cases token with
    | none =>
        -- a request without a token starts a chain
        refine ⟨[], .first hp hstatus, ?_, fun e he => absurd he List.not_mem_nil⟩
        rw [hexchanges]
        exact List.sublist_append_right _ _
    | some t =>
        -- a request with one goes on where the harvested chain ends
        obtain ⟨es, hchain, hsub, hes⟩ := htoken t rfl
        refine ⟨es, .next hchain hp hstatus, ?_, fun e he d hd => hgrow.ids _ (hes e he d hd)⟩
        rw [hexchanges]
        exact hsub.append (.refl _)
  · intro d hd
    exact absurd hd List.not_mem_nil

/-- A page of which every document is on the shelf is the last one of a harvested chain. -/
theorem Given.harvested (h : Given s q p (s.yield p.records) w) (hstatus : p.status = 200)
    (hpending : ∀ d ∈ w.shelf.pending, d.id ∈ w'.shelf.committedIds) (hgrow : Grows w w') :
    Harvested s w' q.window p.token := by
  obtain ⟨es, hchain, hsub, hes⟩ := h.chain hstatus
  refine ⟨es ++ [(q, p)], hchain, hsub.trans hgrow.exchanges, ?_⟩
  intro e he d hd
  rcases List.mem_append.1 he with he | he
  · exact hgrow.ids _ (hes e he d hd)
  · obtain rfl := List.mem_singleton.1 he
    rcases h.taken d hd with hd' | hd'
    · exact hpending d hd'
    · exact hgrow.ids _ hd'

end

variable [FaithfulStore σ] {allowed : Request → Except SourceFault Page → Prop}
  {w w' : Surroundings σ} {q : Request} {p : Page} {ds : List Document}

theorem Sound.grow (h : Sound s w) (hgrow : Grows w w')
    (hdocument : w'.document s.key = w.document s.key) : Sound s w' := by
  intro doc hdoc
  obtain ⟨c, hc, hwhole, hclean⟩ := h doc (hdocument ▸ hdoc)
  exact ⟨c, hc, hwhole, fun h => (hclean h).grow hgrow⟩

theorem Sound.still (h : Sound s w) (hstill : Still s.key w w') : Sound s w' :=
  h.grow hstill.grows hstill.document

/-- A saved checkpoint is sound when it is unclean or tells the truth. -/
theorem Sound.save {c : Checkpoint} {r : Except Store.Fault Unit} (h : Sound s w)
    (hwhole : c.window.Whole) (hclean : c.isClean = true → Harvested s w c.window c.token)
    (hr : Replies allowed w (.save s.key c) r w') : Sound s w' := by
  rcases r with f | ⟨⟩
  · exact h.still (still_of_save_error hr)
  · obtain ⟨hdocument, hshelf, hexchanges⟩ := of_save hr
    have hgrow : Grows w w' := ⟨fun id hid => by rwa [hshelf], by simp [hexchanges]⟩
    intro doc hdoc
    have hc : doc = c.toDocument := Option.some.inj (hdoc.symm.trans hdocument)
    exact ⟨c, hc, hwhole, fun hclean' => (hclean hclean').grow hgrow⟩

theorem grows_of_save {c : Checkpoint} {r : Except Store.Fault Unit}
    (hr : Replies allowed w (.save s.key c) r w') : Grows w w' := by
  rcases r with f | ⟨⟩
  · exact (still_of_save_error hr : Still s.key w w').grows
  · obtain ⟨-, hshelf, hexchanges⟩ := of_save hr
    exact ⟨fun id hid => by rwa [hshelf], by simp [hexchanges]⟩

/-- A flush puts on the shelf what was waiting, or keeps it waiting. -/
theorem sound_of_flush {r : Except SinkFault Unit} (h : Sound s w)
    (hr : Replies allowed w .flush r w') : Sound s w' ∧ Grows w w' ∧
      (r = .ok () → ∀ d ∈ w.shelf.pending, d.id ∈ w'.shelf.committedIds) := by
  rcases r with f | ⟨⟩
  · have hstill : Still s.key w w' := still_of_flush_error hr
    exact ⟨h.still hstill, hstill.grows, nofun⟩
  · obtain ⟨-, hdocument, hstored, hexchanges⟩ := of_flush s.key hr
    have hgrow : Grows w w' :=
      ⟨fun id hid => (Shelf.mem_committedIds_overlay hdocument).2 (.inr hid), by simp [hexchanges]⟩
    refine ⟨h.grow hgrow hstored, hgrow, ?_⟩
    intro _ d hd
    exact (Shelf.mem_committedIds_overlay hdocument).2 (.inl (List.mem_map.2 ⟨d, hd, rfl⟩))

/-! ## The stages keep it -/

theorem quiet_ready : Quiet (Replies (σ := σ) allowed) (fun w => Sound s w ∧ Ready s w q) := by
  intro w e r w' hquiet hw hr
  have hstill : Still s.key w w' := still_of_quiet hquiet hr
  exact ⟨hw.1.still hstill, hw.2.grow hstill.grows⟩

theorem ready_of_request {q' : Request} {limit : Span} {answer : Except SourceFault Page}
    (hw : Sound s w ∧ Ready s w q) (hr : Replies allowed w (.request q' limit) answer w') :
    Sound s w' ∧ Ready s w' q := by
  rcases answer with f | p
  · have hstill : Still s.key w w' := still_of_request_error hr
    exact ⟨hw.1.still hstill, hw.2.grow hstill.grows⟩
  · obtain ⟨-, hshelf, hdocument, hexchanges⟩ := of_request s.key hr
    have hgrow : Grows w w' :=
      ⟨fun id hid => by rwa [hshelf], hexchanges ▸ List.sublist_append_left _ _⟩
    exact ⟨hw.1.grow hgrow hdocument, hw.2.grow hgrow⟩

/-- While a page is dealt with, the invariant holds and the request stays ready. -/
theorem paging_sound (s : CycleSettings) (q : Request)
    (allowed : Request → Except SourceFault Page → Prop) :
    Paging (Replies (σ := σ) allowed) (Sound s) (fun w => Sound s w ∧ Ready s w q)
      (fun w => Sound s w ∧ Ready s w q) (fun w => Sound s w ∧ Ready s w q)
      (fun p ds w => (Sound s w ∧ Ready s w q) ∧ Given s q p ds w) s q where
  soundK w hw := hw.1
  soundT w hw := hw.1
  soundJ p ds w hw := hw.1.1
  quietK := quiet_ready
  quietT := quiet_ready
  again w hw := hw
  twice w hw := hw
  cancelled w w' hw hr := quiet_ready _ _ _ _ rfl hw hr
  putOff w answer w' _ hw hr _ := ready_of_request hw hr
  failed w answer w' _ _ hw hr _ := ready_of_request hw hr
  answered w p w' hw hr hp := by
    obtain ⟨-, hshelf, hdocument, hexchanges⟩ := of_request s.key hr
    have hgrow : Grows w w' :=
      ⟨fun id hid => by rwa [hshelf], hexchanges ▸ List.sublist_append_left _ _⟩
    exact ⟨⟨hw.1.grow hgrow hdocument, hw.2.grow hgrow⟩, hw.2.given hp hexchanges hgrow⟩
  taken w p ds d w' hw hd hr := by
    obtain ⟨hpending, hcommitted, hdocument, hexchanges⟩ := of_index s.key hr
    have hgrow : Grows w w' :=
      ⟨fun id hid => by rwa [Shelf.committedIds, hcommitted], by simp [hexchanges]⟩
    refine ⟨⟨hw.1.1.grow hgrow hdocument, hw.1.2.grow hgrow⟩, ?_, ?_⟩
    · intro hstatus
      obtain ⟨es, hchain, hsub, hes⟩ := hw.2.chain hstatus
      exact ⟨es, hchain, hsub.trans hgrow.exchanges, fun e he d hd => hgrow.ids _ (hes e he d hd)⟩
    · intro d' hd'
      rw [hpending]
      rcases List.mem_append.1 hd' with hd' | hd'
      · -- an earlier document waits still, or was written long ago under the same id
        rcases hw.2.taken d' hd' with h | h
        · exact .inl (List.mem_append_left _ h)
        · exact .inr (hgrow.ids _ h)
      · exact .inl (List.mem_append_right _ hd')
  refused w p ds d f w' hw _ hr := by
    have hstill : Still s.key w w' := still_of_index_error hr
    exact ⟨hw.1.1.still hstill, hw.1.2.grow hstill.grows⟩

/-- The checkpoint of a page that went well tells of the chain up to that page. -/
theorem harvested_of_attempted {a : Attempt} {flushed : Except SinkFault Unit} {w₁ : Surroundings σ}
    (h : Attempted (fun w => Sound s w ∧ Ready s w q)
      (fun p ds w => (Sound s w ∧ Ready s w q) ∧ Given s q p ds w) s a w)
    (hr : Replies allowed w .flush flushed w₁) (hclean : (checkpointAfter q a flushed).isClean = true) :
    Harvested s w₁ q.window (tokenAfter a flushed) := by
  obtain ⟨hstatus, herror, hflushed⟩ := isClean_checkpointAfter.1 hclean
  rw [tokenAfter_of_clean hclean]
  cases h with
  | failed _ => cases herror
  | given _ hgiven =>
      obtain ⟨-, hgrow, hpending⟩ := sound_of_flush hgiven.1.1 hr
      exact hgiven.2.harvested (Int.ofNat.inj hstatus) (hpending hflushed) hgrow

theorem safe_persist_sound {a : Attempt} (report : Report)
    (h : Attempted (fun w => Sound s w ∧ Ready s w q)
      (fun p ds w => (Sound s w ∧ Ready s w q) ∧ Given s q p ds w) s a w) :
    Program.Safe (Replies allowed) (Sound s)
      (Dealt (fun _ => Sound s) (fun t _ w => Sound s w ∧ Ready s w (q.continueWith t)) report)
      (persist s q a) w := by
  have hw : Sound s w ∧ Ready s w q := by
    cases h with
    | failed hw => exact hw
    | given _ hw => exact hw.1
  refine safe_persist.2 ⟨hw.1, ?_⟩
  intro flushed w₁ h₁
  obtain ⟨hsound₁, hgrow₁, -⟩ := sound_of_flush hw.1 h₁
  refine ⟨hsound₁, ?_⟩
  intro saved w₂ h₂
  have hharvested : (checkpointAfter q a flushed).isClean = true →
      Harvested s w₁ q.window (tokenAfter a flushed) := by
    intro hclean
    exact harvested_of_attempted h h₁ hclean
  have hwhole : (checkpointAfter q a flushed).window.Whole := hw.2.whole
  have hsound₂ : Sound s w₂ := hsound₁.save hwhole hharvested h₂
  rw [Dealt]
  split
  · next t _ htoken =>
    -- a token is given on only with a clean checkpoint
    obtain ⟨hclean, -⟩ := clean_of_tokenAfter htoken
    have hnext : Harvested s w₂ q.window (some t) := htoken ▸ (hharvested hclean).grow (grows_of_save h₂)
    obtain ⟨window, token, rfl, hwhole, -⟩ := hw.2
    refine ⟨hsound₂, window, some t, rfl, hwhole, ?_⟩
    intro t' ht'
    cases ht'
    exact hnext
  · exact hsound₂

/-- A cycle starts where a checkpoint in the store allows it to. -/
theorem ready_of_plan {c : Option Checkpoint} {now : Instant} {d : Decision}
    (hwindow : s.planner.window.Whole) (hsound : Sound s w)
    (hreads : FaithfulStore.Reads (w.document s.key) c) (hplan : s.planner.plan? c now = some d)
    (hrequest : d.request? s.template = some q) : Ready s w q := by
  have hfollows := Planner.follows_plan? hplan
  have hstored : ∀ c' ∈ c, c'.window.Whole ∧
      (c'.isClean = true → Harvested s w c'.window c'.token) := by
    rintro c' rfl
    cases hdoc : w.document s.key with
    | none => simp [FaithfulStore.Reads, hdoc] at hreads
    | some doc =>
        obtain ⟨c₀, rfl, hwhole, hclean⟩ := hsound doc hdoc
        rw [hdoc] at hreads
        obtain ⟨c₁, hread, hc₁⟩ := hreads
        cases hc₁
        -- bounds in whole seconds are read as they were written
        rw [Checkpoint.eq_of_ofDocument hwhole hread]
        exact ⟨hwhole, hclean⟩
  refine ⟨d.window, d.token, Decision.eq_of_request? hrequest,
    hfollows.whole hwindow fun c' hc' => (hstored c' hc').1, ?_⟩
  intro t ht
  obtain ⟨c', rfl, hclean, htoken, heq⟩ := hfollows.token ht
  rw [heq, ← htoken]
  exact (hstored c' rfl).2 hclean

theorem safe_page_sound (tally : Tally) (report : Report) (hw : Sound s w ∧ Ready s w q) :
    Program.Safe (Replies allowed) (Sound s) (SoundAt s) (page s tally q report) w := by
  refine (safe_page (E := fun _ => Sound s)
    (N := fun t _ w => Sound s w ∧ Ready s w (q.continueWith t)) tally report (paging_sound s q allowed) hw
    (fun _ _ hw => hw) ?_ ?_ ?_).mono ?_
  · intro _ w e r w' he hw hr
    exact hw.still (still_of_quiet he hr)
  · intro _ w _ hw
    exact hw.1
  · intro report' a w _ ha
    exact safe_persist_sound report' ha
  · intro st w hst
    cases hst with
    | ended hw => exact hw
    | continued hw => exact hw

theorem safe_plan_sound (report : Report) (hwindow : s.planner.window.Whole) (hw : Sound s w) :
    Program.Safe (Replies allowed) (Sound s) (SoundAt s) (plan s report) w := by
  have hquiet : Quiet (Replies (σ := σ) allowed) (Sound s) := by
    intro w e r w' he hw hr
    exact hw.still (still_of_quiet he hr)
  have hreads (c : Option Checkpoint) : Quiet (Replies (σ := σ) allowed)
      (fun w => Sound s w ∧ FaithfulStore.Reads (w.document s.key) c) := by
    intro w e r w' he hw hr
    have hstill : Still s.key w w' := still_of_quiet he hr
    exact ⟨hw.1.still hstill, hstill.document ▸ hw.2⟩
  refine (safe_plan report (fun _ hw => hw) hquiet hreads (fun _ _ hw => hw.1) ?_ hw).mono ?_
  · intro w c w' hw hr
    have hstill : Still s.key w w' := still_of_quiet rfl hr
    exact ⟨hw.still hstill, hstill.document ▸ reads_of_load hr⟩
  · rintro st w ⟨hw, hst⟩
    cases hst with
    | again => exact hw
    | cancelled => exact hw
    | broken => exact hw
    | idle _ => exact hw
    | paging hplan hrequest hL => exact ⟨hw, ready_of_plan hwindow hL.1 hL.2 hplan hrequest⟩

/-- Every stage of a cycle keeps the invariant, and so does a crash. -/
theorem sound_invariant (hwindow : s.planner.window.Whole) :
    Course.Invariant (Replies (σ := σ) allowed) Crash (course s) start (Sound s) (SoundAt s) where
  sound := by
    rintro ⟨_ | _ | _ | _, report⟩ w hw
    · exact hw
    · exact hw.1
    · exact hw
    · exact hw
  first w hw := hw
  crash w w' hw hcrash := by
    refine hw.grow (grows_of_crash hcrash) ?_
    rw [hcrash]
    rfl
  stage := by
    rintro ⟨_ | ⟨tally, q⟩ | _ | _, report⟩ w p hw hp
    · cases hp
      exact safe_plan_sound report hwindow hw
    · cases hp
      exact safe_page_sound tally report hw
    · cases hp
    · cases hp

/-! ## The result -/

/-- The repository may answer anything. -/
def anything : Request → Except SourceFault Page → Prop := fun _ _ => True

/-- The sample when its last page was written. -/
def sampleEnd : (Cycle × Report) × Surroundings MemoryStore :=
  (course sample).follow (calm (fun q => .ok (samplePage q.token)) ⟨0, 0⟩) 3 start sampleStart

/--
Whenever the store holds a clean checkpoint, a chain of pages up to it was given in this run, and every
document of every record on these pages is on the shelf.
-/
theorem committed_of_clean (hwindow : s.planner.window.Whole) {store : σ} {shelf : Shelf}
    (hempty : FaithfulStore.held store s.key .checkpoint = none) {p : Program (Cycle × Report)}
    {w : Surroundings σ} (hreach : (course s).Reaches (Replies anything) Crash start ⟨store, shelf, []⟩ p w)
    {doc : Json} {c : Checkpoint} (hdoc : w.document s.key = some doc)
    (hread : Checkpoint.ofDocument doc = .ok c) (hclean : c.isClean = true) :
    ∃ es, Chain s.template c.window es c.token ∧ es.Sublist w.exchanges ∧
      ∀ e ∈ es, ∀ r ∈ e.2.records, ∀ ds, s.documents r = .ok ds → ∀ d ∈ ds, d.id ∈ w.shelf.committedIds := by
  have hstart : Sound s (⟨store, shelf, []⟩ : Surroundings σ) := by
    intro doc hdoc
    cases hempty.symm.trans hdoc
  obtain ⟨c', rfl, hwhole, hharvested⟩ :=
    hreach.invariant (sound_invariant hwindow) hstart doc hdoc
  -- the checkpoint that is read is the one that was saved
  obtain rfl := Checkpoint.eq_of_ofDocument hwhole hread
  obtain ⟨es, hchain, hsub, hes⟩ := hharvested hclean
  refine ⟨es, hchain, hsub, ?_⟩
  intro e he r hr ds hds d hd
  exact hes e he d (mem_yield.2 ⟨r, hr, ds, hds, hd⟩)

theorem whole_sample : sample.planner.window.Whole := by
  constructor
  · intro _ h
    cases h
  · intro _ h
    cases h

/-- The first page of the sample goes on, so the chain up to the end has the second one too. -/
theorem sampleEnd_chain {window : Window} {es : List (Request × Page)} (h : Chain sample.template window es none)
    (hsub : es.Sublist sampleEnd.2.exchanges) : 2 ≤ es.length := by
  have hpages : ∀ e ∈ sampleEnd.2.exchanges, e.1.token = none → e.2.token = some "more" := by decide +kernel
  generalize hnone : (none : Option String) = token at h
  cases h with
  | first _ _ =>
      have hmore := hpages _ (hsub.subset (List.mem_singleton_self _)) rfl
      cases hnone.trans hmore
  | next hchain _ _ =>
      have hpos := List.length_pos_of_ne_nil hchain.ne_nil
      rw [List.length_append, List.length_singleton]
      omega

/-- Two pages, the second one asked for with the token of the first. -/
theorem committed_of_clean_sample :
    (Store.load sampleEnd.2.store "source").1 = .ok (some ⟨none, none, none, none, 200⟩) ∧
      ∃ es, Chain sample.template ⟨none, none⟩ es none ∧ es.Sublist sampleEnd.2.exchanges ∧ 2 ≤ es.length ∧
        ∀ e ∈ es, ∀ r ∈ e.2.records, ∀ ds, sample.documents r = .ok ds →
          ∀ d ∈ ds, d.id ∈ sampleEnd.2.shelf.committedIds := by
  have hreach : (course sample).Reaches (Replies anything) Crash start sampleStart (.done sampleEnd.1)
      sampleEnd.2 :=
    Course.Reaches.follow (replies_calm (fun _ => trivial) ⟨0, 0⟩) 3 .start
  have hload : (Store.load sampleEnd.2.store "source").1 = .ok (some ⟨none, none, none, none, 200⟩) := by
    decide +kernel
  have hlong {es : List (Request × Page)} (h : Chain sample.template ⟨none, none⟩ es none) := sampleEnd_chain h
  -- from here on the run itself is of no interest
  generalize sampleEnd.2 = w at hreach hload hlong ⊢
  rcases hstored : Store.load w.store "source" with ⟨r, store⟩
  rw [hstored] at hload
  obtain rfl : r = .ok (some ⟨none, none, none, none, 200⟩) := hload
  have hreads : FaithfulStore.Reads (w.document "source") (some ⟨none, none, none, none, 200⟩) :=
    FaithfulStore.load_ok hstored
  cases hdoc : w.document "source" with
  | none =>
      rw [hdoc] at hreads
      cases hreads
  | some doc =>
      rw [hdoc] at hreads
      obtain ⟨c, hread, hc⟩ := hreads
      cases hc
      obtain ⟨es, hchain, hsub, hcommitted⟩ := committed_of_clean whole_sample rfl hreach hdoc hread rfl
      exact ⟨rfl, es, hchain, hsub, hlong hchain hsub, hcommitted⟩

end Cycle

end Harvesting
