import Harvesting.Cycle.Runner
import Harvesting.Proofs.Cycle.Events
import Harvesting.Proofs.Progress.Tally

/-!
# The books of a source

Cycles of one key, one after the other, in surroundings where anything may fail but the tally. A cycle that has
something to do reads the tally once and writes it twice, as it begins and as it ends, and it ends exactly once,
whatever comes in between; any other cycle leaves the tally alone. So the stored tally is the sum over the reports.

* `Books` — what events do to the stored document of a tally;
* `Enters`, `entered_stage` — what a cycle enters, up to any of its stages;
* `Enters.settled` — what is stored behind a cycle that is over;
* `Round`, `Rounds` — cycles of one key one after the other;
* `Balance`, `Balance.idle`, `Balance.busy` — a tally that is the sum over the reports, and one more round;
* `books_balance` — the result.
-/

namespace Harvesting

open FaithfulStore (ReadsTally)

/-! ## What is entered -/

/-- The clock is read, or a tally is read or written. -/
def Effect.isEntry : Effect → Bool
  | .clock | .loadTally _ | .saveTally .. => true
  | _ => false

/-- The readings of the clock, and of and to the tally, in order. -/
def entries (es : List Event) : List Event := es.filter (·.effect.isEntry)

/-- What the clock showed. -/
def Event.moment? : Event → Option Instant
  | ⟨.clock, now⟩ => some now
  | _ => none

/-- What the clock showed, in order. -/
def moments (es : List Event) : List Instant := es.filterMap Event.moment?

/-- The store does not give the tally, or does not take it. -/
def Event.refusesTally : Event → Bool
  | ⟨.loadTally _, .error _⟩ | ⟨.saveTally .., .error _⟩ => true
  | _ => false

/-- The cycle had something to do. -/
def Report.isBusy (r : Report) : Bool := r.decision.any fun d => !d.isWait

section

variable {es es' : List Event}

theorem entries_append (es es' : List Event) : entries (es ++ es') = entries es ++ entries es' :=
  List.filter_append ..

theorem entries_eq_nil (h : ∀ ev ∈ es, ev.effect.isEntry = false) : entries es = [] := by
  rw [entries, List.filter_eq_nil_iff]
  intro ev hev
  rw [h ev hev]
  exact Bool.false_ne_true

/-- The clock is read only by entries. -/
theorem moments_entries (es : List Event) : moments (entries es) = moments es := by
  rw [moments, entries, List.filterMap_filter]
  congr 1
  funext ev
  obtain ⟨e, r⟩ := ev
  cases e <;> rfl

end

/-! ## The stored document -/

/-- What an event does to the stored document of a tally. -/
def Books (key : String) : Answers (Option Json)
  | doc, .loadTally k, .ok t, doc' => doc' = doc ∧ (k = key → ReadsTally doc t)
  | doc, .saveTally k t, .ok (), doc' => doc' = if key = k then some t.toDocument else doc
  | doc, _, _, doc' => doc' = doc

section

variable {key k : String} {doc doc' : Option Json} {t : Tally}

theorem books_loadTally : Books key doc (.loadTally k) (.ok t) doc' ↔ doc' = doc ∧ (k = key → ReadsTally doc t) :=
  Iff.rfl

theorem books_saveTally :
    Books key doc (.saveTally k t) (.ok ()) doc' ↔ doc' = if key = k then some t.toDocument else doc :=
  Iff.rfl

/-- Only an entry changes the document. -/
theorem books_skip {e : Effect} {r : e.Reply} (he : e.isEntry = false) (h : Books key doc e r doc') : doc' = doc := by
  cases e <;> first | exact h | cases he

end

namespace Surroundings

variable {σ : Type} [FaithfulStore σ] {allowed : Request → Except SourceFault Page → Prop} {w w' : Surroundings σ}
  {es : List Event}

/-- The document of the tally that the store holds. -/
def books (w : Surroundings σ) (key : String) : Option Json := FaithfulStore.held w.store key .tally

theorem books_replies (key : String) {e : Effect} {r : e.Reply} (h : Replies allowed w e r w') :
    Books key (w.books key) e r (w'.books key) := by
  obtain ⟨-, hdoes⟩ := h
  have hsame (hstore : FaithfulStore.held w'.store key .tally = FaithfulStore.held w.store key .tally) :
      w'.books key = w.books key := hstore
  cases e with
  | cancelled => exact hsame (by rw [hdoes.1])
  | pause n => exact hsame (by rw [hdoes.1])
  | clock => exact hsame (by rw [hdoes.1])
  | wallClock => exact hsame (by rw [hdoes.1])
  | request q limit => exact hsame (by rw [hdoes.2.1])
  | index d => exact hsame (by rw [hdoes.2])
  | flush => exact hsame (by rw [hdoes.2])
  | close => exact hsame (by rw [hdoes.2])
  | load k =>
      apply hsame
      rcases hdoes.1 with hload | ⟨-, hstore⟩
      · rw [FaithfulStore.held_load hload]
      · rw [hstore]
  | save k c =>
      apply hsame
      rcases hdoes.1 with hsave | ⟨-, hstore⟩
      · exact FaithfulStore.held_save hsave key
      · rw [hstore]
  | loadTally k =>
      have hdoc : w'.books key = w.books key := by
        apply hsame
        rcases hdoes.1 with hload | ⟨-, hstore⟩
        · rw [FaithfulStore.held_loadTally hload]
        · rw [hstore]
      rcases r with f | t
      · exact hdoc
      · refine ⟨hdoc, ?_⟩
        rintro rfl
        rcases hdoes.1 with hload | ⟨⟨f, hf⟩, -⟩
        · exact FaithfulStore.loadTally_ok hload
        · cases hf
  | saveTally k t =>
      rcases r with f | ⟨⟩
      · apply hsame
        rcases hdoes.1 with hsave | ⟨-, hstore⟩
        · rw [FaithfulStore.saveTally_error hsave]
        · rw [hstore]
      · rcases hdoes.1 with hsave | ⟨⟨f, hf⟩, -⟩
        · exact FaithfulStore.saveTally_ok hsave key
        · cases hf

/-- What is done to the document is told by the entries. -/
theorem books_trace (key : String) (h : Trace (Replies allowed) w es w') :
    Trace (Books key) (w.books key) (entries es) (w'.books key) :=
  (h.map (books · key) fun _ _ _ _ hr => books_replies key hr).filter (·.effect.isEntry)
    fun _ _ _ _ hskip hr => books_skip hskip hr

/-- The events of a run are the ones that its log tells. -/
theorem log_of_trace (h : Trace (Replies allowed) w es w') : w'.log = w.log ++ es := by
  have hlog : Trace Recorded w.log es w'.log := h.map log fun _ _ _ _ hr => hr.1
  exact hlog.recorded

end Surroundings

/-! ## The entries of a cycle -/

theorem Decision.isWait_eq (d : Decision) (template : Request) : d.isWait = (d.request? template).isNone := by
  cases d <;> rfl

namespace Cycle

open Program

variable {s : CycleSettings} {q : Request} {report : Report} {tally : Tally} {es log : List Event}
  {st st' : Cycle × Report}

/-- The tally that a cycle goes on with; one that cannot be read starts anew. -/
def resumed : Except Store.Fault Tally → Tally
  | .ok t => t
  | .error _ => Tally.empty

/-- What is entered as a cycle begins: when it is planned, and the tally as it is read and as it is begun. -/
def opening (s : CycleSettings) (planned : Instant) (kept : Except Store.Fault Tally) (begun : Instant)
    (written : Except Store.Fault Unit) : List Event :=
  [⟨.clock, planned⟩, ⟨.loadTally s.key, kept⟩, ⟨.clock, begun⟩,
    ⟨.saveTally s.key ((resumed kept).start begun), written⟩]

/-- What is entered as a cycle ends. -/
def closing (s : CycleSettings) (tally : Tally) (ended : Instant) (records : Nat)
    (written : Except Store.Fault Unit) : List Event :=
  [⟨.clock, ended⟩, ⟨.saveTally s.key (tally.finish ended records), written⟩]

/-- What a cycle entered, up to a stage. -/
inductive Enters (s : CycleSettings) : Cycle × Report → List Event → Prop where
  | planning : Enters s start []
  /-- The cycle had nothing to do, or was cancelled before it could be planned, or broke down. -/
  | idle {st : Cycle × Report} {es : List Event} : course s st = none → st.2.isBusy = false → st.2.records = 0 →
      (∀ ev ∈ es, ev.effect = .clock) → Enters s st es
  | paging {q : Request} {report : Report} {planned begun : Instant} {kept : Except Store.Fault Tally}
      {written : Except Store.Fault Unit} : report.isBusy = true →
      Enters s (.paging ((resumed kept).start begun) q, report) (opening s planned kept begun written)
  | ended {report : Report} {planned begun ended : Instant} {kept : Except Store.Fault Tally}
      {written written' : Except Store.Fault Unit} : report.isBusy = true →
      Enters s (.ended, report) (opening s planned kept begun written ++
        closing s ((resumed kept).start begun) ended report.records written')

theorem enters_finish (h : (finish s tally report).Does es st) :
    ∃ ended written, entries es = closing s tally ended report.records written ∧ st = (.ended, report) := by
  obtain ⟨ended, _, rfl, written, _, rfl, rfl, rfl⟩ := h
  exact ⟨ended, written, rfl, rfl⟩

theorem enters_begin {tally : Tally} (h : (begin s).Does es tally) :
    ∃ kept begun written, tally = (resumed kept).start begun ∧
      es = [⟨.loadTally s.key, kept⟩, ⟨.clock, begun⟩, ⟨.saveTally s.key tally, written⟩] := by
  obtain ⟨kept, _, rfl, begun, _, rfl, written, _, rfl, rfl, rfl⟩ := h
  exact ⟨kept, begun, written, by cases kept <;> rfl, rfl⟩

theorem isBusy_planned (s : CycleSettings) (d : Decision) :
    { Report.empty with decision := some d }.isBusy = (d.request? s.template).isSome := by
  rw [Report.isBusy, Option.any_some, d.isWait_eq s.template, Option.not_isNone]

theorem enters_plan (h : (plan s .empty).Does es st) : Enters s st (entries es) := by
  cases does_planning h with
  | stopped => exact .idle rfl rfl rfl (List.forall_mem_nil _)
  | again => exact .planning
  | cut => exact .idle rfl rfl rfl (List.forall_mem_nil _)
  | broken _ => exact .idle rfl rfl rfl (by simp [entries, Effect.isEntry])
  | @idle _ _ d _ hrequest =>
      have hidle := isBusy_planned s d
      rw [hrequest] at hidle
      exact .idle rfl hidle rfl (by simp [entries, Effect.isEntry])
  | @paging c now begun d q kept tally written hplan hrequest =>
      have hbusy := isBusy_planned s d
      rw [hrequest] at hbusy
      -- the tally that is written is the one that was begun
      have hbegin : (begin s).Does [⟨.loadTally s.key, kept⟩, ⟨.clock, begun⟩, ⟨.saveTally s.key tally, written⟩]
          tally := by
        obtain ⟨_, _, heq, h⟩ := h
        cases heq
        obtain ⟨_, _, heq, h⟩ := h
        cases heq
        obtain ⟨_, _, heq, h⟩ := does_perform.1 h
        cases heq
        simp only [hplan, hrequest, does_bind] at h
        obtain ⟨es₁, tally', es₂, heq, h, rfl, hst⟩ := h
        cases hst
        rw [List.append_nil] at heq
        rwa [heq]
      obtain ⟨kept', begun', written', rfl, heq⟩ := enters_begin hbegin
      cases heq
      exact .paging hbusy

/-- Neither the requests for a page nor what follows from the answer are entered. -/
theorem entries_attempt {a : Option Attempt × Report} (h : (attempt s q report).Does es a) : entries es = [] := by
  apply entries_eq_nil
  cases does_tries h with
  | cancelled _ _ => simp [Effect.isEntry]
  | @settled t report' _ hsound _ =>
      have hhanded : ∀ ev ∈ t.handed, ev.effect.isEntry = false := by
        intro ev hev
        obtain ⟨d, taken, rfl⟩ := hsound.settled.indexes ev hev
        rfl
      cases hput : t.putOff <;> simpa [Try.events, hput, or_imp, forall_and, Effect.isEntry] using hhanded

/-- The stage of a page enters nothing, or the end of the cycle. -/
theorem entries_page (h : (page s tally q report).Does es st) :
    (entries es = [] ∧ ∃ q', st.1 = .paging tally q') ∨
      ∃ ended written, entries es = closing s tally ended st.2.records written ∧ st.1 = .ended := by
  -- whatever was done before, the cycle ends as `finish` ends it
  have hends {es es' : List Event} {later : Report} (hes : entries es = [])
      (h : (finish s tally later).Does es' st) :
      ∃ ended written, entries (es ++ es') = closing s tally ended st.2.records written ∧ st.1 = .ended := by
    obtain ⟨ended, written, hclosing, rfl⟩ := enters_finish h
    exact ⟨ended, written, by rw [entries_append, hes, hclosing]; rfl, rfl⟩
  have htried {es : List Event} {a : Option Attempt × Report} (h : (attempt s q report).Does es a) :
      entries (⟨.cancelled, false⟩ :: es) = [] := by
    show entries es = []
    exact entries_attempt h
  have hsaved {es : List Event} {a : Attempt} {flushed : Except SinkFault Unit} {saved : Except Store.Fault Unit}
      (h : entries es = []) : entries (es ++ saves s q a flushed saved) = [] := by
    rw [entries_append, h]
    rfl
  cases does_goes h with
  | stopped hfinish =>
      have hstopped : entries [⟨.cancelled, true⟩] = [] := rfl
      exact .inr (hends hstopped hfinish)
  | cancelled hattempt hfinish => exact .inr (hends (htried hattempt) hfinish)
  | last hattempt hfinish => exact .inr (hends (hsaved (htried hattempt)) hfinish)
  | next hattempt => exact .inl ⟨hsaved (htried hattempt), _, rfl⟩

/-- What happened up to a stage enters what it has to. -/
def EnteredAt (s : CycleSettings) (st : Cycle × Report) (log : List Event) : Prop := Enters s st (entries log)

theorem entered_stage {p : Program (Cycle × Report)} (h : EnteredAt s st log) (hp : course s st = some p)
    (hdoes : p.Does es st') : EnteredAt s st' (log ++ es) := by
  rw [EnteredAt] at h
  rw [EnteredAt, entries_append]
  generalize entries log = entered at h
  cases h with
  | planning =>
      cases hp
      exact enters_plan hdoes
  | idle hover _ _ _ => cases hover.symm.trans hp
  | @paging q report planned begun kept written hbusy =>
      cases hp
      have hdecision : st'.2.decision = report.decision := (does_page hdoes).2
      have hbusy' : st'.2.isBusy = true := by rw [Report.isBusy, hdecision]; exact hbusy
      obtain ⟨stage, report'⟩ := st'
      rcases entries_page hdoes with ⟨hnone, q', rfl⟩ | ⟨ended, written', hclosing, rfl⟩
      · rw [hnone, List.append_nil]
        exact .paging hbusy'
      · rw [hclosing]
        exact .ended hbusy'
  | ended _ => cases hp

/-- What is stored behind a cycle that is over, if the store gave the tally and took it. -/
theorem Enters.settled {doc doc' : Option Json} {t : Tally} (h : Enters s st es) (hover : course s st = none)
    (htrace : Trace (Books s.key) doc es doc') (hserved : ∀ ev ∈ es, ev.refusesTally = false)
    (htells : ReadsTally doc t) :
    st.2.isBusy = false ∧ st.2.records = 0 ∧ doc' = doc ∨
      st.2.isBusy = true ∧ ∃ planned begun ended, moments es = [planned, begun, ended] ∧
        doc' = some ((t.start begun).finish ended st.2.records).toDocument := by
  cases h with
  | planning => cases hover
  | idle _ hidle hrecords hclock =>
      have hsame : id doc' = id doc := by
        refine htrace.keeps fun doc e r doc' hmem hbooks => ?_
        obtain rfl : e = .clock := hclock _ hmem
        exact hbooks
      exact .inl ⟨hidle, hrecords, hsame⟩
  | paging _ => cases hover
  | @ended report planned begun ended kept written written' hbusy =>
      simp only [opening, closing, List.cons_append, List.nil_append, List.forall_mem_cons] at hserved
      obtain ⟨-, hkept, -, hwritten, -, hwritten', -⟩ := hserved
      cases kept with
      | error f => cases hkept
      | ok t' =>
        cases written with
        | error f => cases hwritten
        | ok _ =>
          cases written' with
          | error f => cases hwritten'
          | ok _ =>
            refine .inr ⟨hbusy, planned, begun, ended, rfl, ?_⟩
            -- the tally that was read is the stored one, and the last one that was written is left
            obtain ⟨doc₁, hplanned, hrest⟩ := htrace.uncons
            obtain ⟨doc₂, hread, hrest⟩ := hrest.uncons
            obtain ⟨doc₃, -, hrest⟩ := hrest.uncons
            obtain ⟨doc₄, -, hrest⟩ := hrest.uncons
            obtain ⟨doc₅, -, hrest⟩ := hrest.uncons
            obtain ⟨doc₆, hfinish, hrest⟩ := hrest.uncons
            cases hrest
            obtain rfl : doc₁ = doc := hplanned
            obtain rfl := ((books_loadTally.1 hread).2 rfl).unique htells
            rw [books_saveTally.1 hfinish, if_pos rfl]
            rfl

end Cycle

/-! ## Tallies that are read again -/

theorem FaithfulStore.ReadsTally.lasting {doc : Option Json} {t : Tally} (h : ReadsTally doc t) : t.Lasting := by
  cases h with
  | none => exact ⟨nofun, nofun, Nat.zero_le _, Nat.zero_le _⟩
  | some hread => exact Tally.lasting_of_ofDocument hread

theorem Tally.Lasting.finish {t t' : Tally} {begun ended : Instant} {records : Nat} (h : t.Lasting)
    (ht' : t' = (t.start begun).finish ended records) (hbegun : begun.Shown) (hended : ended.Shown)
    (hcounter : t'.counter ≤ Json.maxWhole) (hcycles : t'.cycles ≤ Json.maxWhole) : t'.Lasting := by
  refine ⟨?_, ?_, hcounter, hcycles⟩
  · rintro i hi
    rw [ht'] at hi
    obtain rfl : t.started.getD begun = i := Option.some.inj hi
    cases hstarted : t.started with
    | none => exact hbegun
    | some i => exact h.started i hstarted
  · rintro i hi
    rw [ht'] at hi
    cases hi
    exact hended

/-! ## Cycles one after the other -/

/-- A cycle that is over: its report, and what happened in it. -/
structure Round where
  report : Report
  events : List Event

namespace Round

/-- What the clock showed as the cycle began: it is read once before, to plan the cycle. -/
def begun? (r : Round) : Option Instant := (moments r.events)[1]?

/-- What the clock showed as the cycle ended. -/
def ended? (r : Round) : Option Instant := (moments r.events)[2]?

/-- The cycles that had something to do, in order. -/
def busy (rounds : List Round) : List Round := rounds.filter (·.report.isBusy)

/-- The records that the reports count. -/
def records (rounds : List Round) : Nat := rounds.foldl (fun n r => n + r.report.records) 0

/-- The clock was read as the cycle was planned, as it began and as it ended. -/
def IsTimed (r : Round) : Prop := ∃ planned begun ended, moments r.events = [planned, begun, ended]

end Round

open Round (busy records)

/-- Cycles of one key, one after the other, each of them to its end. -/
inductive Rounds {σ : Type} [FaithfulStore σ] (allowed : Request → Except SourceFault Page → Prop) (key : String)
    (w : Surroundings σ) : List Round → Surroundings σ → Prop where
  | nil : Rounds allowed key w [] w
  | round {w' w'' : Surroundings σ} {rounds : List Round} {s : CycleSettings} {st : Cycle × Report}
      {es : List Event} : Rounds allowed key w rounds w' → s.key = key →
      (Cycle.course s).Leads (Surroundings.Replies allowed) Cycle.start w' st w'' → Cycle.course s st = none →
      w''.log = w'.log ++ es → Rounds allowed key w (rounds ++ [⟨st.2, es⟩]) w''

/-- The tally is an earlier one with the reports of the rounds since. -/
structure Balance (earlier : Tally) (rounds : List Round) (t : Tally) : Prop where
  counter : t.counter = earlier.counter + records rounds
  cycles : t.cycles = earlier.cycles + (busy rounds).length
  started : t.started = earlier.started.or ((busy rounds).head?.bind Round.begun?)
  timestamp : t.timestamp = ((busy rounds).getLast?.bind Round.ended?).or earlier.timestamp
  active : t.active = if busy rounds = [] then earlier.active else false
  timed : ∀ r ∈ busy rounds, r.IsTimed

section

variable {earlier t : Tally} {rounds : List Round} {r : Round}

theorem records_concat (rounds : List Round) (r : Round) :
    records (rounds ++ [r]) = records rounds + r.report.records := by
  rw [records, List.foldl_concat]
  rfl

theorem busy_idle (h : r.report.isBusy = false) : busy (rounds ++ [r]) = busy rounds := by
  simp [busy, h]

theorem busy_busy (h : r.report.isBusy = true) : busy (rounds ++ [r]) = busy rounds ++ [r] := by
  simp [busy, h]

theorem balance_nil (t : Tally) : Balance t [] t :=
  ⟨rfl, rfl, (Option.or_none).symm, rfl, rfl, List.forall_mem_nil _⟩

/-- A round without anything to do changes nothing. -/
theorem Balance.idle (h : Balance earlier rounds t) (hidle : r.report.isBusy = false)
    (hrecords : r.report.records = 0) : Balance earlier (rounds ++ [r]) t := by
  have hbusy : Round.busy (rounds ++ [r]) = Round.busy rounds := busy_idle hidle
  refine ⟨?_, ?_, ?_, ?_, ?_, ?_⟩
  · rw [records_concat, hrecords, h.counter]
    rfl
  · rw [hbusy, h.cycles]
  · rw [hbusy, h.started]
  · rw [hbusy, h.timestamp]
  · rw [hbusy, h.active]
  · rw [hbusy]
    exact h.timed

/-- Any other round is entered. -/
theorem Balance.busy {planned begun ended : Instant} (h : Balance earlier rounds t) (hr : r.report.isBusy = true)
    (hmoments : moments r.events = [planned, begun, ended]) :
    Balance earlier (rounds ++ [r]) ((t.start begun).finish ended r.report.records) := by
  have hbusy : Round.busy (rounds ++ [r]) = Round.busy rounds ++ [r] := busy_busy hr
  have hbegun : r.begun? = some begun := by simp [Round.begun?, hmoments]
  have hended : r.ended? = some ended := by simp [Round.ended?, hmoments]
  refine ⟨?_, ?_, ?_, ?_, ?_, ?_⟩
  · show t.counter + r.report.records = _
    rw [records_concat, h.counter, Nat.add_assoc]
  · show t.cycles + 1 = _
    rw [hbusy, h.cycles, List.length_append, Nat.add_assoc]
    rfl
  · -- only the first round that is entered says when the source was first harvested
    show some (t.started.getD begun) = _
    rw [hbusy, h.started]
    cases hrounds : Round.busy rounds with
    | nil => cases earlier.started <;> simp [hbegun]
    | cons first rest =>
        obtain ⟨_, begun', _, htimed⟩ := h.timed first (hrounds ▸ List.mem_cons_self)
        have hfirst : first.begun? = some begun' := by simp [Round.begun?, htimed]
        cases earlier.started <;> simp [hfirst]
  · show some ended = _
    rw [hbusy, List.getLast?_concat, Option.bind_some, hended, Option.some_or]
  · rw [hbusy, if_neg (by simp)]
    rfl
  · rw [hbusy]
    intro r' hr'
    rcases List.mem_append.1 hr' with hr' | hr'
    · exact h.timed r' hr'
    · obtain rfl := List.mem_singleton.1 hr'
      exact ⟨planned, begun, ended, hmoments⟩

end

section

variable {σ : Type} [FaithfulStore σ] {allowed : Request → Except SourceFault Page → Prop} {key : String}
  {w w' : Surroundings σ} {s : CycleSettings} {st : Cycle × Report} {es : List Event} {rounds : List Round}

/-- One cycle to its end. -/
theorem settled_round {t : Tally} (hrun : (Cycle.course s).Leads (Surroundings.Replies allowed) Cycle.start w st w')
    (hover : Cycle.course s st = none) (hlog : w'.log = w.log ++ es)
    (hserved : ∀ ev ∈ es, ev.refusesTally = false) (htells : ReadsTally (w.books s.key) t) :
    st.2.isBusy = false ∧ st.2.records = 0 ∧ w'.books s.key = w.books s.key ∨
      st.2.isBusy = true ∧ ∃ planned begun ended, moments es = [planned, begun, ended] ∧
        w'.books s.key = some ((t.start begun).finish ended st.2.records).toDocument := by
  obtain ⟨es', htrace, hdoes⟩ := hrun.trace
  obtain rfl : es' = es := List.append_cancel_left ((Surroundings.log_of_trace htrace).symm.trans hlog)
  have hat : Cycle.EnteredAt s st ([] ++ es') :=
    hdoes.keeps (fun _ _ _ _ _ h hp hdoes => Cycle.entered_stage h hp hdoes) .planning
  have hentries : ∀ ev ∈ entries es', ev.refusesTally = false := fun ev hev => hserved ev (List.mem_filter.1 hev).1
  have hsettled := Cycle.Enters.settled hat hover (Surroundings.books_trace s.key htrace) hentries htells
  rwa [List.nil_append, moments_entries] at hsettled

/--
The books of a source balance, after any number of cycles of one key. The stored tally counts the records of
all reports, and the cycles whose reports have a decision other than to wait. It was first harvested when the
first of these began, if it was not harvested before; its time is the one at which the last of them ended, and
none of them is going on. Other cycles, those that wait or are cancelled before they are planned, leave the
document of the tally as it is. The tallies are given and taken, and their counts have 64 bits; anything else
may fail or be cancelled at any time.
-/
theorem books_balance {t₀ : Tally} (hrounds : Rounds allowed key w rounds w') (htells : ReadsTally (w.books key) t₀)
    (hserved : ∀ r ∈ rounds, ∀ ev ∈ r.events, ev.refusesTally = false)
    (hclock : ∀ r ∈ rounds, ∀ now ∈ moments r.events, now.Shown)
    (hcounter : t₀.counter + records rounds ≤ Json.maxWhole)
    (hcycles : t₀.cycles + (busy rounds).length ≤ Json.maxWhole) :
    ∃ t, ReadsTally (w'.books key) t ∧ Balance t₀ rounds t ∧ (busy rounds = [] → w'.books key = w.books key) := by
  induction hrounds with
  | nil => exact ⟨t₀, htells, balance_nil t₀, fun _ => rfl⟩
  | @round w' w'' rounds s st es _ hkey hrun hover hlog ih =>
      subst hkey
      obtain ⟨hservedBefore, hservedNow⟩ := List.forall_mem_append.1 hserved
      obtain ⟨hclockBefore, hclockNow⟩ := List.forall_mem_append.1 hclock
      have hcounterBefore : t₀.counter + records rounds ≤ Json.maxWhole := by
        rw [records_concat] at hcounter
        omega
      have hcyclesBefore : t₀.cycles + (busy rounds).length ≤ Json.maxWhole := by
        rw [busy, List.filter_append, List.length_append] at hcycles
        exact Nat.le_trans (Nat.add_le_add_left (Nat.le_add_right ..) _) hcycles
      obtain ⟨t, hreads, hbalance, hsame⟩ := ih hservedBefore hclockBefore hcounterBefore hcyclesBefore
      have hround := settled_round hrun hover hlog (hservedNow _ List.mem_cons_self) hreads
      rcases hround with ⟨hidle, hrecords, hdoc⟩ | ⟨hbusy, planned, begun, ended, hmoments, hdoc⟩
      · refine ⟨t, by rw [hdoc]; exact hreads, hbalance.idle hidle hrecords, ?_⟩
        rw [busy_idle hidle, hdoc]
        exact hsame
      · have hbalance' := hbalance.busy (r := ⟨st.2, es⟩) hbusy hmoments
        have hshown := hclockNow ⟨st.2, es⟩ List.mem_cons_self
        rw [hmoments] at hshown
        have hlasting : ((t.start begun).finish ended st.2.records).Lasting :=
          hreads.lasting.finish rfl (hshown begun (by simp)) (hshown ended (by simp))
            (hbalance'.counter ▸ hcounter) (hbalance'.cycles ▸ hcycles)
        refine ⟨_, by rw [hdoc]; exact .some (Tally.ofDocument_eq hlasting), hbalance', ?_⟩
        rw [busy_busy hbusy]
        intro hnone
        cases (List.append_eq_nil_iff.1 hnone).2

end

/-- A small harvest at some time, or one that is cancelled before it is planned. -/
def visiting (cancelled : Bool) (now : Instant) (w : Surroundings MemoryStore) :
    (e : Effect) → e.Reply × Surroundings MemoryStore
  | .cancelled => (cancelled, w.after .cancelled cancelled w.store w.shelf)
  | e => Surroundings.calm (fun q => .ok (Surroundings.samplePage q.token)) now w e

/-- Where such a harvest leads to. -/
def visited (cancelled : Bool) (now : Instant) (w : Surroundings MemoryStore) :
    (Cycle × Report) × Surroundings MemoryStore :=
  (Cycle.course Surroundings.sample).follow (visiting cancelled now) 3 Cycle.start w

theorem Rounds.visit {w₀ w : Surroundings MemoryStore} {rounds : List Round}
    (h : Rounds (fun _ _ => True) "source" w₀ rounds w) (cancelled : Bool) (now : Instant)
    (hover : (Cycle.course Surroundings.sample (visited cancelled now w).1).isNone = true) :
    Rounds (fun _ _ => True) "source" w₀
      (rounds ++ [⟨(visited cancelled now w).1.2, (visited cancelled now w).2.log.drop w.log.length⟩])
      (visited cancelled now w).2 := by
  have hreplies (w : Surroundings MemoryStore) (e : Effect) :
      Surroundings.Replies (fun _ _ => True) w e (visiting cancelled now w e).1 (visiting cancelled now w e).2 := by
    have hcalm : Surroundings.Replies (fun _ _ => True) w e
        (Surroundings.calm (fun q => .ok (Surroundings.samplePage q.token)) now w e).1
        (Surroundings.calm (fun q => .ok (Surroundings.samplePage q.token)) now w e).2 :=
      Surroundings.replies_calm (fun _ => trivial) now w e
    cases e with
    | cancelled => exact ⟨rfl, rfl, rfl⟩
    | _ => exact hcalm
  have hrun := Course.leads_follow (c := Cycle.course Surroundings.sample) hreplies 3 Cycle.start w
  obtain ⟨es, htrace, -⟩ := hrun.trace
  have hlog := Surroundings.log_of_trace htrace
  refine .round h rfl hrun (Option.isNone_iff_eq_none.1 hover) ?_
  rw [visited, hlog, List.drop_left]

/-- A harvest, one that is cancelled, and another harvest. -/
theorem books_balance_thrice :
    ∃ rounds w, Rounds (fun _ _ => True) "source" Surroundings.sampleStart rounds w ∧
      rounds.map (·.report.isBusy) = [true, false, true] ∧
      ∃ t, ReadsTally (w.books "source") t ∧ t.counter = 6 ∧ t.cycles = 2 ∧ t.started = some ⟨20, 0⟩ ∧
        t.timestamp = some ⟨31, 0⟩ ∧ t.active = false := by
  have hnone : Rounds (fun _ _ => True) "source" Surroundings.sampleStart [] Surroundings.sampleStart := .nil
  have hfirst := hnone.visit false ⟨20, 0⟩ (by decide +kernel)
  have hsecond := hfirst.visit true ⟨25, 0⟩ (by decide +kernel)
  have hthird := hsecond.visit false ⟨31, 0⟩ (by decide +kernel)
  obtain ⟨t, hreads, hbalance, -⟩ := books_balance hthird .none (by decide +kernel) (by decide +kernel)
    (by decide +kernel) (by decide +kernel)
  refine ⟨_, _, hthird, by decide +kernel, t, hreads, hbalance.counter.trans ?_, hbalance.cycles.trans ?_,
    hbalance.started.trans ?_, hbalance.timestamp.trans ?_, hbalance.active.trans ?_⟩
  all_goals decide +kernel

end Harvesting
