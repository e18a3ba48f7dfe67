import Harvesting.Proofs.Output.Batches
import Harvesting.Proofs.Output.Shelf

/-!
# Batches as an endpoint applies them

Requests that are in flight together may be applied in any order. After a flush, the endpoint has applied
every batch exactly once, and the document that it keeps under an id is the one that was indexed last,
unless the last batch with the id was overtaken by another one with the id that was in flight with it.
If only one request is sent at a time, there is no such batch.

* `Served`, `Served.Event`, `Served.Step` — a sink with its endpoint, and what can happen next;
* `Served.Alongside` — two requests that were in flight together;
* `Served.Serves` — what was applied so far and in which order; `Run.serves` — it holds on every run;
* `Served.Overtaken` — the last batch with an id was not applied last;
* `Served.kept_of_flushed` — the result, and `Served.kept_older` — an endpoint that keeps an older document.
-/

namespace Harvesting

/-- A sink with one client, and its endpoint. -/
structure Served where
  shared : Shared Unit
  /-- The numbers of the requests that were not answered yet. Each of them takes a lane. -/
  busy : List Nat
  /-- The requests that were not applied yet. -/
  pending : List Flight
  /-- The documents of the endpoint by their ids. -/
  kept : String → Option Document

/-- The ids of the documents in a batch. -/
def Flight.ids (f : Flight) : List String := f.documents.map (·.id)

namespace Served

/-- What happens at a sink and its endpoint. -/
inductive Event where
  | client (h : Happening Unit)
  | applied (f : Flight)
  /-- The endpoint answers, and the lane of the request is free again. -/
  | answered (number : Nat)

def Event.happening? : Event → Option (Happening Unit)
  | .client h => some h
  | _ => none

def Event.flight? : Event → Option Flight
  | .applied f => some f
  | _ => none

/-- What happened at the sink, in order. -/
def happenings (es : List Event) : List (Happening Unit) := es.filterMap Event.happening?

/-- The requests that were applied, in order. -/
def applied (es : List Event) : List Flight := es.filterMap Event.flight?

/-- A sink before its first document, and an endpoint that has some documents. -/
def start (b : Batcher) (kept : String → Option Document) : Served := ⟨Shared.start b, [], [], kept⟩

/-- What can happen next at a sink of which every request succeeds. -/
inductive Step (w : Served) : Event → Served → Prop where
  /-- A request is sent when a lane is free. -/
  | send {n : Nat} {batch : List Document} {lot : List (Entry Unit)} {v : Shared Unit} :
      w.shared.Step (.launched () n batch lot) v → w.busy.length < w.shared.batcher.lanes →
      Step w (.client (.launched () n batch lot)) ⟨v, w.busy ++ [n], w.pending ++ [⟨n, batch⟩], w.kept⟩
  /-- The endpoint applies any of the requests, all documents of it at once. -/
  | apply {f : Flight} {l r : List Flight} : w.pending = l ++ f :: r →
      Step w (.applied f) { w with pending := l ++ r, kept := overlay f.documents w.kept }
  | answer {n : Nat} : n ∈ w.busy → (∀ f ∈ w.pending, f.number ≠ n) →
      Step w (.answered n) { w with busy := w.busy.filter (· ≠ n) }
  /-- The sink learns that a request succeeded. -/
  | land {n : Nat} {v : Shared Unit} : w.shared.Step (.landed n (.ok ())) v → n ∉ w.busy →
      Step w (.client (.landed n (.ok ()))) { w with shared := v }
  | other {h : Happening Unit} {v : Shared Unit} : h.isWire = false → w.shared.Step h v →
      Step w (.client h) { w with shared := v }

/-- What happened, in order. -/
inductive Run (w : Served) : List Event → Served → Prop where
  | nil : Run w [] w
  | snoc {es : List Event} {e : Event} {w' w'' : Served} : Run w es w' → Step w' e w'' → Run w (es ++ [e]) w''

/-- The second request was sent while the first one was in flight. -/
def Alongside (es : List Event) (f g : Flight) : Prop :=
  ∃ before lot after, es = before ++ .client (.launched () g.number g.documents lot) :: after ∧
    f ∈ Shared.sent (happenings before) ∧ .answered f.number ∉ before

/--
Of the requests with a document of this id, the one that was sent last was not applied last: another one,
with which it was in flight, was applied after it.
-/
def Overtaken (es : List Event) (id : String) : Prop :=
  ∃ f g, Alongside es f g ∧ id ∈ f.ids ∧ id ∈ g.ids ∧ [g, f].Sublist (applied es) ∧
    ∀ k ∈ Shared.sent (happenings es), id ∈ k.ids → k.number ≤ g.number

end Served

/-! ## Documents by their ids -/

namespace Shared

theorem mem_contents {fs : List Flight} {id : String} :
    id ∈ (contents fs).map (·.id) ↔ ∃ f ∈ fs, id ∈ f.ids := by
  simp only [contents, Flight.ids, List.mem_map, List.mem_flatMap]
  grind

/-- The last batch with an id says what is kept under it. -/
theorem overlay_contents {l r : List Flight} {g : Flight} {id : String} (hg : id ∈ g.ids)
    (hr : ∀ f ∈ r, id ∉ f.ids) (kept kept' : String → Option Document) :
    overlay (contents (l ++ g :: r)) kept id = overlay g.documents kept' id := by
  have hnone : id ∉ (contents r).map (·.id) := by
    rw [mem_contents]
    rintro ⟨f, hf, hid⟩
    exact hr f hf hid
  obtain ⟨d, hd⟩ := exists_overlay_of_mem hg
  have hsplit : contents (l ++ g :: r) = contents l ++ g.documents ++ contents r := by simp [contents]
  rw [hsplit, overlay_append, overlay_of_notMem hnone, overlay_append, hd, hd]

/-- The last batch with an id. -/
theorem exists_last {fs : List Flight} {id : String} (h : ∃ f ∈ fs, id ∈ f.ids) :
    ∃ l g r, fs = l ++ g :: r ∧ id ∈ g.ids ∧ ∀ f ∈ r, id ∉ f.ids := by
  induction fs using List.reverseRecOn with
  | nil =>
      obtain ⟨f, hf, -⟩ := h
      cases hf
  | append_singleton fs f ih =>
      by_cases hid : id ∈ f.ids
      · exact ⟨fs, f, [], rfl, hid, nofun⟩
      · obtain ⟨k, hk, hkid⟩ := h
        rcases List.mem_append.1 hk with hk | hk
        · obtain ⟨l, g, r, rfl, hg, hr⟩ := ih ⟨k, hk, hkid⟩
          refine ⟨l, g, r ++ [f], by simp, hg, ?_⟩
          intro x hx
          rcases List.mem_append.1 hx with hx | hx
          · exact hr x hx
          · cases List.mem_singleton.1 hx
            exact hid
        · cases List.mem_singleton.1 hk
          exact absurd hkid hid

/-- No batch with the id has a higher number than the last one. -/
theorem eq_or_lt_of_last {fs l r : List Flight} {g k : Flight} {id : String} (hfs : fs = l ++ g :: r)
    (hnumbers : (fs.map (·.number)).Pairwise (· < ·)) (hr : ∀ f ∈ r, id ∉ f.ids) (hk : k ∈ fs)
    (hid : id ∈ k.ids) : k = g ∨ k.number < g.number := by
  rw [hfs] at hk hnumbers
  rw [List.map_append, List.pairwise_append] at hnumbers
  rcases List.mem_append.1 hk with hk | hk
  · exact .inr (hnumbers.2.2 _ (List.mem_map_of_mem hk) _ (by simp))
  · rcases List.mem_cons.1 hk with rfl | hk
    · exact .inl rfl
    · exact absurd hid (hr k hk)

/-- Batches without the id leave its document as it is. -/
theorem overlay_contents_of_notMem {fs : List Flight} {id : String} (h : ∀ f ∈ fs, id ∉ f.ids)
    (kept : String → Option Document) : overlay (contents fs) kept id = kept id := by
  apply overlay_of_notMem
  rw [mem_contents]
  rintro ⟨f, hf, hid⟩
  exact h f hf hid

/-! ## The numbers of what is sent -/

section

variable {ι : Type} {b b' : Batcher} {h : Happening ι} {l : List (Happening ι)}

theorem flight?_of_not_isWire (hquiet : h.isWire = false) : h.flight? = none := by
  cases h with
  | launched i n batch lot => cases hquiet
  | _ => rfl

/-- The batches are numbered one after the other. -/
theorem Moves.numbers (hmoves : Moves b h b') (hl : (sent l).map (·.number) = List.range b.sent) :
    (sent (l ++ [h])).map (·.number) = List.range b'.sent := by
  cases hmoves with
  | launched i batch lot =>
      rw [sent_launched, List.map_append, hl]
      exact List.range_succ.symm
  | still _ hquiet | joined hquiet => rwa [sent_other (flight?_of_not_isWire hquiet)]
  | landed _ _ => rwa [sent_other rfl]
  | told i k =>
      rw [sent_other rfl]
      cases k <;> exact hl

theorem Moves.quiet (hmoves : Moves b h b') (hquiet : h.isWire = false) :
    b'.sent = b.sent ∧ b'.flying = b.flying := by
  cases hmoves with
  | launched _ _ _ | landed _ _ => cases hquiet
  | still _ _ | joined _ => exact ⟨rfl, rfl⟩
  | told i k => cases k <;> exact ⟨rfl, rfl⟩

variable [DecidableEq ι]

theorem Run.numbers {w : Shared ι} (hrun : Run (start b) l w) (hb : b.sent = 0) :
    (sent l).map (·.number) = List.range w.batcher.sent := by
  induction hrun with
  | nil =>
      show [] = List.range b.sent
      rw [hb]
      rfl
  | snoc _ hstep ih => exact hstep.moves.numbers ih

theorem Run.numbered {w : Shared ι} (hrun : Run (start b) l w) (hb : b.flying = []) : Numbered l w.batcher := by
  induction hrun with
  | nil => exact numbered_nil hb
  | snoc _ hstep ih => exact hstep.moves.numbered ih

theorem Run.settings_eq {w w' : Shared ι} (hrun : Run w l w') :
    w'.batcher.size = w.batcher.size ∧ w'.batcher.lanes = w.batcher.lanes := by
  induction hrun with
  | nil => exact ⟨rfl, rfl⟩
  | snoc _ hstep ih => exact ⟨hstep.moves.settings_eq.1.trans ih.1, hstep.moves.settings_eq.2.trans ih.2⟩

end

end Shared

namespace Served

open Shared (sent contents sampleDocument)

variable {b : Batcher} {kept : String → Option Document} {es es' : List Event} {e : Event} {w w' : Served}
  {f g : Flight}

/-! ## Runs -/

@[simp] theorem happenings_client {h : Happening Unit} : happenings (es ++ [.client h]) = happenings es ++ [h] :=
  List.filterMap_append

@[simp] theorem happenings_applied : happenings (es ++ [.applied f]) = happenings es := by simp [happenings, Event.happening?]

@[simp] theorem happenings_answered {n : Nat} : happenings (es ++ [.answered n]) = happenings es := by
  simp [happenings, Event.happening?]

@[simp] theorem applied_applied : applied (es ++ [.applied f]) = applied es ++ [f] := List.filterMap_append

theorem applied_other (he : e.flight? = none) : applied (es ++ [e]) = applied es := by
  simp [applied, List.filterMap_append, he]

theorem Run.last (hrun : Run w (es ++ [e]) w') : ∃ v, Run w es v ∧ Step v e w' := by
  generalize hes : es ++ [e] = es' at hrun
  cases hrun with
  | nil => simp at hes
  | snoc hrun hstep =>
      obtain ⟨rfl, he⟩ := List.append_inj' hes rfl
      cases he
      exact ⟨_, hrun, hstep⟩

/-- Any event of a run is a step after a shorter run. -/
theorem Run.step_of (hrun : Run w (es ++ e :: es') w') : ∃ v v', Run w es v ∧ Step v e v' := by
  induction es' using List.reverseRecOn generalizing w' with
  | nil =>
      obtain ⟨v, hv, hstep⟩ := hrun.last
      exact ⟨v, w', hv, hstep⟩
  | append_singleton es' e' ih =>
      rw [← List.cons_append, ← List.append_assoc] at hrun
      obtain ⟨v, hv, -⟩ := hrun.last
      exact ih hv

/-- Between the calls of the endpoint, a run is a run of the sink. -/
theorem Run.client (hrun : Run (start b kept) es w) : Shared.Run (Shared.start b) (happenings es) w.shared := by
  induction hrun with
  | nil => exact .nil _
  | snoc _ hstep ih =>
      cases hstep with
      | send hstep _ | land hstep _ | other _ hstep =>
          rw [happenings_client]
          exact ih.snoc hstep
      | apply _ =>
          rw [happenings_applied]
          exact ih
      | answer _ _ =>
          rw [happenings_answered]
          exact ih

/-! ## In which order -/

theorem Alongside.append (h : Alongside es f g) (es' : List Event) : Alongside (es ++ es') f g := by
  obtain ⟨before, lot, after, rfl, hf⟩ := h
  exact ⟨before, lot, after ++ es', by simp, hf⟩

/-- The requests that were sent and applied so far, and the documents of the endpoint. -/
structure Serves (kept : String → Option Document) (es : List Event) (w : Served) : Prop where
  once : (applied es ++ w.pending).Perm (sent (happenings es))
  documents : w.kept = overlay (contents (applied es)) kept
  /-- What was not applied was not answered. -/
  busy : ∀ f ∈ w.pending, f.number ∈ w.busy
  flying : ∀ n ∈ w.busy, ∃ f ∈ w.shared.batcher.flying, f.number = n
  answered : ∀ f ∈ sent (happenings es), f.number ∈ w.busy ∨ .answered f.number ∈ es
  gone : ∀ n, .answered n ∈ es → n ∉ w.busy ∧ n < w.shared.batcher.sent
  /-- A request that was sent later and applied before the other one, or is to be. -/
  ahead : ∀ f ∈ applied es ++ w.pending, ∀ g ∈ w.pending, g.number < f.number → Alongside es g f
  late : (applied es).Pairwise fun f g => g.number < f.number → Alongside es g f

theorem serves_start (b : Batcher) (kept : String → Option Document) : Serves kept [] (start b kept) where
  once := .refl _
  documents := rfl
  busy _ := nofun
  flying _ := nofun
  answered _ := nofun
  gone _ := nofun
  ahead _ := nofun
  late := .nil

/-- Nothing is sent, and the requests in flight stay in flight. -/
theorem Serves.still (hw : Serves kept es w) {h : Happening Unit} {v : Shared Unit} (hquiet : h.flight? = none)
    (hsent : v.batcher.sent = w.shared.batcher.sent)
    (hflying : ∀ n ∈ w.busy, ∃ f ∈ v.batcher.flying, f.number = n) :
    Serves kept (es ++ [.client h]) { w with shared := v } := by
  have hanswered (n : Nat) : .answered n ∈ es ++ [.client h] ↔ .answered n ∈ es := by simp
  constructor <;>
    simp only [happenings_client, Shared.sent_other hquiet, applied_other (e := .client h) rfl, hanswered, hsent]
  · exact hw.once
  · exact hw.documents
  · exact hw.busy
  · exact hflying
  · exact hw.answered
  · exact hw.gone
  · exact fun f hf g hg hless => (hw.ahead f hf g hg hless).append _
  · exact hw.late.imp fun h hless => (h hless).append _

theorem Serves.send (hw : Serves kept es w) {batch : List Document} {lot : List (Entry Unit)} {v : Shared Unit}
    (hbelow : ∀ f ∈ sent (happenings es), f.number < w.shared.batcher.sent)
    (hv : v.batcher = w.shared.batcher.launch batch) :
    Serves kept (es ++ [.client (.launched () w.shared.batcher.sent batch lot)])
      ⟨v, w.busy ++ [w.shared.batcher.sent], w.pending ++ [⟨w.shared.batcher.sent, batch⟩], w.kept⟩ := by
  have hsent : v.batcher.sent = w.shared.batcher.sent + 1 := by
    rw [hv]
    rfl
  have hflying : v.batcher.flying = w.shared.batcher.flying ++ [⟨w.shared.batcher.sent, batch⟩] := by
    rw [hv]
    rfl
  have hknown : ∀ f ∈ applied es ++ w.pending, f.number < w.shared.batcher.sent := fun f hf =>
    hbelow f (hw.once.mem_iff.1 hf)
  constructor <;> simp only [happenings_client, Shared.sent_launched, applied_other (e := .client _) rfl]
  · rw [← List.append_assoc]
    exact hw.once.append_right _
  · exact hw.documents
  · intro f hf
    rcases List.mem_append.1 hf with hf | hf
    · exact List.mem_append_left _ (hw.busy f hf)
    · cases List.mem_singleton.1 hf
      simp
  · intro n hn
    rw [hflying]
    rcases List.mem_append.1 hn with hn | hn
    · obtain ⟨f, hf, rfl⟩ := hw.flying n hn
      exact ⟨f, List.mem_append_left _ hf, rfl⟩
    · cases List.mem_singleton.1 hn
      exact ⟨⟨w.shared.batcher.sent, batch⟩, by simp, rfl⟩
  · intro f hf
    rcases List.mem_append.1 hf with hf | hf
    · exact (hw.answered f hf).imp (List.mem_append_left _) (List.mem_append_left _)
    · cases List.mem_singleton.1 hf
      simp
  · intro n hn
    obtain ⟨hbusy, hless⟩ := hw.gone n (by simpa using hn)
    rw [hsent]
    refine ⟨?_, by omega⟩
    simp only [List.mem_append, List.mem_singleton, not_or]
    exact ⟨hbusy, by omega⟩
  · intro f hf g hg hless
    rw [← List.append_assoc] at hf
    rcases List.mem_append.1 hg with hg | hg
    · rcases List.mem_append.1 hf with hf | hf
      · exact (hw.ahead f hf g hg hless).append _
      · -- the new request is sent while an older one was not answered
        cases List.mem_singleton.1 hf
        refine ⟨es, lot, [], rfl, hw.once.mem_iff.1 (List.mem_append_right _ hg), ?_⟩
        intro hanswered
        exact (hw.gone _ hanswered).1 (hw.busy g hg)
    · cases List.mem_singleton.1 hg
      rcases List.mem_append.1 hf with hf | hf
      · have hless' : f.number < w.shared.batcher.sent := hknown f hf
        have hless : w.shared.batcher.sent < f.number := hless
        omega
      · cases List.mem_singleton.1 hf
        exact absurd hless (Nat.lt_irrefl _)
  · exact hw.late.imp fun h hless => (h hless).append _

theorem Serves.apply (hw : Serves kept es w) {l r : List Flight} (hpending : w.pending = l ++ f :: r) :
    Serves kept (es ++ [.applied f]) { w with pending := l ++ r, kept := overlay f.documents w.kept } := by
  have hmem {k : Flight} : k ∈ l ++ r → k ∈ w.pending := by
    rw [hpending]
    simp only [List.mem_append, List.mem_cons]
    rintro (hk | hk)
    · exact .inl hk
    · exact .inr (.inr hk)
  have hf : f ∈ w.pending := by simp [hpending]
  have hanswered (n : Nat) : .answered n ∈ es ++ [.applied f] ↔ .answered n ∈ es := by simp
  constructor <;> simp only [happenings_applied, applied_applied, hanswered]
  · rw [List.append_assoc]
    refine List.Perm.trans ?_ hw.once
    rw [hpending]
    exact List.Perm.append_left _ (List.perm_middle.symm : (f :: (l ++ r)).Perm (l ++ f :: r))
  · funext id
    rw [Shared.contents_append, Shared.contents_singleton, overlay_append, hw.documents]
  · exact fun k hk => hw.busy k (hmem hk)
  · exact hw.flying
  · exact hw.answered
  · exact hw.gone
  · intro k hk g hg hless
    refine (hw.ahead k ?_ g (hmem hg) hless).append _
    simp only [List.mem_append, List.mem_singleton] at hk ⊢
    rcases hk with (hk | rfl) | hk
    · exact .inl hk
    · exact .inr hf
    · exact .inr (hmem (List.mem_append.2 hk))
  · rw [List.pairwise_append]
    refine ⟨hw.late.imp fun h hless => (h hless).append _, List.pairwise_singleton _ _, ?_⟩
    intro k hk g hg hless
    cases List.mem_singleton.1 hg
    exact (hw.ahead k (List.mem_append_left _ hk) f hf hless).append _

theorem Serves.answer (hw : Serves kept es w) {n : Nat} (hpending : ∀ f ∈ w.pending, f.number ≠ n)
    (hless : n < w.shared.batcher.sent) :
    Serves kept (es ++ [.answered n]) { w with busy := w.busy.filter (· ≠ n) } := by
  have hbusy (k : Nat) : k ∈ w.busy.filter (· ≠ n) ↔ k ∈ w.busy ∧ k ≠ n := by simp
  constructor <;> simp only [happenings_answered, applied_other (e := .answered n) rfl, hbusy]
  · exact hw.once
  · exact hw.documents
  · exact fun f hf => ⟨hw.busy f hf, hpending f hf⟩
  · exact fun k hk => hw.flying k hk.1
  · intro f hf
    by_cases hfn : f.number = n
    · exact .inr (by simp [hfn])
    · exact (hw.answered f hf).imp (⟨·, hfn⟩) (List.mem_append_left _)
  · intro k hk
    rcases List.mem_append.1 hk with hk | hk
    · exact ⟨fun h => (hw.gone k hk).1 h.1, (hw.gone k hk).2⟩
    · cases List.mem_singleton.1 hk
      exact ⟨fun h => h.2 rfl, hless⟩
  · exact fun f hf g hg hless => (hw.ahead f hf g hg hless).append _
  · exact hw.late.imp fun h hless => (h hless).append _

theorem Run.serves (hrun : Run (start b kept) es w) (hb : b.flying = []) (hsent : b.sent = 0) :
    Serves kept es w := by
  induction hrun with
  | nil => exact serves_start b kept
  | @snoc es e v v' hrun hstep ih =>
      have hnumbered := hrun.client.numbered hb
      cases hstep with
      | send hlaunch _ =>
          have hbelow : ∀ f ∈ sent (happenings es), f.number < v.shared.batcher.sent := by
            intro f hf
            rw [← List.mem_range, ← hrun.client.numbers hsent]
            exact List.mem_map_of_mem hf
          cases hlaunch with
          | launch _ _ => exact ih.send hbelow rfl
      | apply hpending => exact ih.apply hpending
      | @answer n hn hpending =>
          obtain ⟨f, hf, rfl⟩ := ih.flying n hn
          obtain ⟨i, batch, lot, hlaunched⟩ := hnumbered.flying f hf
          exact ih.answer hpending (hnumbered.below _ _ _ _ hlaunched)
      | @land n v'' hland hn =>
          cases hland with
          | @land f _ hf =>
              refine ih.still rfl rfl ?_
              intro k hk
              obtain ⟨g, hg, rfl⟩ := ih.flying k hk
              refine ⟨g, List.mem_filter.2 ⟨hg, ?_⟩, rfl⟩
              have hne : g.number ≠ f.number := fun h => hn (h ▸ hk)
              simpa using hne
      | @other h v'' hquiet hstep =>
          obtain ⟨hnumber, hflying⟩ := hstep.moves.quiet hquiet
          refine ih.still (Shared.flight?_of_not_isWire hquiet) hnumber ?_
          rw [hflying]
          exact ih.flying

/-- With a single lane, no two requests are in flight together. -/
theorem Run.not_alongside (hrun : Run (start b kept) es w) (hb : b.flying = []) (hsent : b.sent = 0)
    (hlanes : b.lanes = 1) : ¬ Alongside es f g := by
  rintro ⟨before, lot, after, rfl, hf, hanswered⟩
  obtain ⟨v, v', hv, hstep⟩ := hrun.step_of
  cases hstep with
  | send _ hfree =>
      have hsame : v.shared.batcher.lanes = 1 := hv.client.settings_eq.2.trans hlanes
      have hempty : v.busy = [] := List.eq_nil_of_length_eq_zero (by omega)
      rcases (hv.serves hb hsent).answered f hf with hbusy | hbusy
      · rw [hempty] at hbusy
        cases hbusy
      · exact hanswered hbusy
  | other hquiet _ => cases hquiet

/-! ## What is kept -/

/-- Once everything was applied, every document that was sent is kept, unless it was overtaken. -/
theorem Serves.kept_eq (hw : Serves kept es w) (hpending : w.pending = [])
    (hnumbers : ((sent (happenings es)).map (·.number)).Pairwise (· < ·)) (id : String) :
    w.kept id = overlay (contents (sent (happenings es))) kept id ∨ Overtaken es id := by
  have honce := hw.once
  rw [hpending, List.append_nil] at honce
  rw [hw.documents]
  by_cases hid : ∃ f ∈ sent (happenings es), id ∈ f.ids
  · obtain ⟨l, g, r, hsent, hg, hr⟩ := Shared.exists_last hid
    have hlast {k : Flight} := Shared.eq_or_lt_of_last (k := k) hsent hnumbers hr
    have hmem : g ∈ applied es := honce.mem_iff.2 (by simp [hsent])
    obtain ⟨l', r', happlied⟩ := List.append_of_mem hmem
    by_cases hlater : ∃ f ∈ r', id ∈ f.ids
    · obtain ⟨f, hf, hfid⟩ := hlater
      have hnodup : ((applied es).map (·.number)).Nodup :=
        (honce.map _).nodup_iff.2 (hnumbers.imp Nat.ne_of_lt)
      have hlate := hw.late
      rw [happlied, List.pairwise_append, List.pairwise_cons] at hlate
      have hsublist : [g, f].Sublist (applied es) := by
        rw [happlied]
        exact ((List.singleton_sublist.2 hf).cons_cons g).trans (List.sublist_append_right l' _)
      have hfsent : f ∈ sent (happenings es) := honce.mem_iff.1 (by simp [happlied, hf])
      refine .inr ⟨f, g, ?_, hfid, hg, hsublist, ?_⟩
      · rcases hlast hfsent hfid with rfl | hless
        · -- no request is applied twice
          have htwice := hnodup.sublist (hsublist.map _)
          simp at htwice
        · exact hlate.2.1.1 f hf hless
      · intro k hk hkid
        rcases hlast hk hkid with rfl | hless
        · exact Nat.le_refl _
        · exact Nat.le_of_lt hless
    · left
      have hr' : ∀ f ∈ r', id ∉ f.ids := fun f hf hfid => hlater ⟨f, hf, hfid⟩
      rw [happlied, hsent, Shared.overlay_contents hg hr' kept kept, Shared.overlay_contents hg hr kept kept]
  · left
    have hsent : ∀ f ∈ sent (happenings es), id ∉ f.ids := fun f hf hfid => hid ⟨f, hf, hfid⟩
    have happlied : ∀ f ∈ applied es, id ∉ f.ids := fun f hf => hsent f (honce.mem_iff.1 hf)
    rw [Shared.overlay_contents_of_notMem happlied, Shared.overlay_contents_of_notMem hsent]

end Served

/-! ## The sink in memory -/

namespace Shelf

/-- The sink in memory after a call. -/
def afterCall (s : Shelf) : SinkCall → Shelf
  | .index d => (s.index d).2
  | .flush => s.flush.2

/-- The sink in memory after some calls. -/
def afterCalls (cs : List SinkCall) : Shelf := cs.foldl afterCall empty

/-- The documents that wait and those on the shelf are the ones that were indexed. -/
structure Holds (cs : List SinkCall) (s : Shelf) : Prop where
  isOpen : s.closed = false
  sound : s.failAt = none
  documents : overlay s.pending s.document? = overlay (SinkCall.documents cs) fun _ => none

theorem Holds.flush {cs : List SinkCall} {s : Shelf} (hs : Holds cs s) :
    Holds (cs ++ [.flush]) s.flush.2 ∧ s.flush.2.document? = overlay (SinkCall.documents cs) fun _ => none := by
  have hok : s.flush = (.ok (), s.flush.2) := by simp [Shelf.flush, hs.sound]
  obtain ⟨hpending, hdocuments⟩ := flush_ok hok
  have hdocuments : s.flush.2.document? = overlay (SinkCall.documents cs) fun _ => none :=
    hdocuments.trans hs.documents
  refine ⟨⟨?_, ?_, ?_⟩, hdocuments⟩
  · simp [Shelf.flush, hs.sound, hs.isOpen]
  · simp [Shelf.flush, hs.sound]
  · rw [hpending, hdocuments]
    funext id
    simp [overlay, SinkCall.documents]

theorem Holds.index {cs : List SinkCall} {s : Shelf} (hs : Holds cs s) (d : Document) :
    Holds (cs ++ [.index d]) (s.index d).2 := by
  have hok : s.index d = (.ok (), { s with pending := s.pending ++ [d] }) := by simp [Shelf.index, hs.isOpen]
  rw [hok]
  refine ⟨hs.isOpen, hs.sound, ?_⟩
  funext id
  show overlay (s.pending ++ [d]) s.document? id = _
  rw [overlay_append, hs.documents, ← overlay_append]
  simp [SinkCall.documents]

theorem holds (cs : List SinkCall) : Holds cs (afterCalls cs) := by
  induction cs using List.reverseRecOn with
  | nil => exact ⟨rfl, rfl, rfl⟩
  | append_singleton cs c ih =>
      rw [afterCalls, List.foldl_concat]
      cases c with
      | index d => exact ih.index d
      | flush => exact ih.flush.1

/-- After a flush the documents that were indexed are on the shelf. -/
theorem document?_flushed (cs : List SinkCall) :
    (afterCalls (cs ++ [.flush])).document? = overlay (SinkCall.documents cs) fun _ => none := by
  rw [afterCalls, List.foldl_concat]
  exact (holds cs).flush.2

end Shelf

/-! ## After a flush -/

namespace Shared

variable {b : Batcher} {cs : List SinkCall} {c : SinkCall} {l : List (Happening Unit)} {w w' : Shared Unit}

theorem Calls.last (hcalls : w.Calls (cs ++ [c]) l w') :
    ∃ l' m r v, w.Calls cs l' v ∧ v.Makes c m r w' ∧ l = l' ++ m := by
  generalize hcs : cs ++ [c] = cs' at hcalls
  cases hcalls with
  | nil => simp at hcs
  | snoc hcalls hcall =>
      obtain ⟨rfl, hc⟩ := List.append_inj' hcs rfl
      cases hc
      exact ⟨_, _, _, _, hcalls, hcall, rfl⟩

/-- After a flush nothing is left to send, and what was sent are the documents in their order. -/
theorem Calls.flushed (hb : b.Settled) (hopen : b.closed = false)
    (hcalls : (start b).Calls (cs ++ [.flush]) l w) : w.AtRest ∧ contents (sent l) = SinkCall.documents cs := by
  have hcalled := hcalls.called hopen
  obtain ⟨l', m, r, v, hcalls', hcall, rfl⟩ := hcalls.last
  have hcall : v.Closes .flush m r w := hcall
  have hcalled' := hcalls'.called hopen
  have hstart : (start b : Shared Unit).AtRest := ⟨faithful_start hb, hb, rfl⟩
  obtain ⟨m', -, -, -, htold⟩ := hcall.told_of (hcalled'.run.since hstart hcalled'.isOpen) hcalled'.isOpen
  refine ⟨htold.rest, ?_⟩
  have hcomplete := hcalled.run.complete hb hcalled.isOpen
  rw [Complete, hcalled.free, hcalled.handed, htold.rest.settled.buffer] at hcomplete
  simpa [Errand.batch, SinkCall.documents] using hcomplete

end Shared

namespace Served

open Shared (sent contents sampleDocument)

/-! ## A sample -/

/-- Every document is a batch, and two batches are sent at a time. -/
def twoLanes : SinkSettings := { SinkSettings.default with batchSize := 1, concurrency := some 2 }

/-- Two documents are indexed, and the request with the second one is applied first. -/
def sampleEvents (d e : Document) : List Event :=
  [.client (.handed ⟨(), 0, d⟩), .client (.launched () 0 [d] [⟨(), 0, d⟩]), .client (.handed ⟨(), 1, e⟩),
    .client (.launched () 1 [e] [⟨(), 1, e⟩]), .applied ⟨1, [e]⟩, .applied ⟨0, [d]⟩, .answered 0, .answered 1,
    .client (.landed 0 (.ok ())), .client (.landed 1 (.ok ())), .client (.called () .flush), .client (.through ()),
    .client (.told () .flush (.ok ()))]

/-- The sink with so many requests sent, the answers that came, and what its client is about. -/
def sampleShared (endpoint : Address) (flying : List Flight) (landed : List (Except SinkFault Unit)) (n count : Nat)
    (errand : Errand Unit) : Shared Unit :=
  ⟨⟨endpoint, 1, 2, twoLanes.timeout, [], flying, landed, none, false, n⟩, [], fun _ => errand, count⟩

theorem hand_sample (endpoint : Address) (flying : List Flight) (n : Nat) (d : Document) :
    (sampleShared endpoint flying [] n n .free).Step (.handed ⟨(), n, d⟩)
      (sampleShared endpoint flying [] n (n + 1) (.sending [d] [⟨(), n, d⟩] none)) :=
  .fill (i := ()) (d := d) rfl rfl rfl

theorem launch_sample (endpoint : Address) (flying : List Flight) (n : Nat) (d : Document) :
    (sampleShared endpoint flying [] n (n + 1) (.sending [d] [⟨(), n, d⟩] none)).Step
      (.launched () n [d] [⟨(), n, d⟩]) (sampleShared endpoint (flying ++ [⟨n, [d]⟩]) [] (n + 1) (n + 1) .free) := by
  have herrand : (sampleShared endpoint flying [] n (n + 1) (.sending [d] [⟨(), n, d⟩] none)).errand () =
    .sending [d] [⟨(), n, d⟩] none := rfl
  exact .launch herrand rfl

theorem index_sample (endpoint : Address) (flying : List Flight) (n : Nat) (d : Document) :
    (sampleShared endpoint flying [] n n .free).Indexes d [.handed ⟨(), n, d⟩, .launched () n [d] [⟨(), n, d⟩]] (.ok ())
      (sampleShared endpoint (flying ++ [⟨n, [d]⟩]) [] (n + 1) (n + 1) .free) := by
  have hrun := (Shared.Run.single (hand_sample endpoint flying n d)).snoc (launch_sample endpoint flying n d)
  exact .taken (l := []) hrun nofun (by simp [Happening.isInner]) rfl rfl

/-- The calls of the sample: the two requests are answered before the flush is called. -/
theorem exists_sample (d e : Document) (kept : String → Option Document) :
    ∃ b w, Batcher.of twoLanes 1 = .ok b ∧ Run (start b kept) (sampleEvents d e) w ∧
      (Shared.start b).Calls ([.index d, .index e] ++ [.flush]) (happenings (sampleEvents d e)) w.shared ∧
      w.kept = overlay [d] (overlay [e] kept) := by
  obtain ⟨endpoint, hb⟩ := Shared.exists_of twoLanes 1 rfl (by decide)
  let f : Flight := ⟨0, [d]⟩
  let g : Flight := ⟨1, [e]⟩
  have hf : (sampleShared endpoint [f, g] [] 2 2 .free).Step (.landed 0 (.ok ()))
    (sampleShared endpoint [g] [.ok ()] 2 2 .free) := .land (f := f) (.ok ()) List.mem_cons_self
  have hg : (sampleShared endpoint [g] [.ok ()] 2 2 .free).Step (.landed 1 (.ok ()))
    (sampleShared endpoint [] [.ok (), .ok ()] 2 2 .free) := .land (f := g) (.ok ()) List.mem_cons_self
  have hcalled : (sampleShared endpoint [] [.ok (), .ok ()] 2 2 .free).Step (.called () .flush)
    (sampleShared endpoint [] [.ok (), .ok ()] 2 2 (.awaiting .flush)) := .nothing (i := ()) rfl rfl
  have hthrough : (sampleShared endpoint [] [.ok (), .ok ()] 2 2 (.awaiting .flush)).Step (.through ())
    (sampleShared endpoint [] [] 2 2 (.settling .flush)) := .through (i := ()) (k := .flush) rfl rfl
  have htold : (sampleShared endpoint [] [] 2 2 (.settling .flush)).Step (.told () .flush (.ok ()))
    (sampleShared endpoint [] [] 2 2 .free) := .tell (i := ()) rfl rfl
  have hflush : (sampleShared endpoint [f, g] [] 2 2 .free).Closes .flush
      [.landed 0 (.ok ()), .landed 1 (.ok ()), .called () .flush, .through (), .told () .flush (.ok ())] (.ok ())
      (sampleShared endpoint [] [] 2 2 .free) := by
    have hrun := ((((Shared.Run.single hf).snoc hg).snoc hcalled).snoc hthrough).snoc htold
    exact .told (l := [.landed 0 (.ok ()), .landed 1 (.ok ())]) (m := [.through ()]) hrun
      (by simp [Happening.isInner]) (by simp [Happening.isInner])
  have hcalls := ((Shared.Calls.nil (w := sampleShared endpoint [] [] 0 0 .free)).snoc (c := .index d)
    (index_sample endpoint [] 0 d)).snoc (c := .index e) (index_sample endpoint [f] 1 e)
  have hsent := ((((Run.nil (w := ⟨sampleShared endpoint [] [] 0 0 .free, [], [], kept⟩)).snoc
    (.other rfl (hand_sample endpoint [] 0 d))).snoc (.send (launch_sample endpoint [] 0 d) (Nat.zero_lt_succ _))).snoc
    (.other rfl (hand_sample endpoint [f] 1 e))).snoc (.send (launch_sample endpoint [f] 1 e) (Nat.lt_succ_self _))
  have happlied := (hsent.snoc (.apply (l := [f]) (r := []) rfl)).snoc (.apply (l := []) (r := []) rfl)
  have hanswered := (happlied.snoc (.answer (n := 0) List.mem_cons_self nofun)).snoc
    (.answer (n := 1) List.mem_cons_self nofun)
  have hlanded := (hanswered.snoc (.land hf nofun)).snoc (.land hg nofun)
  have hrun := ((hlanded.snoc (.other rfl hcalled)).snoc (.other rfl hthrough)).snoc (.other rfl htold)
  exact ⟨_, _, hb, hrun, hcalls.snoc (c := .flush) hflush, rfl⟩

/-! ## The result -/

/--
A client indexes documents and flushes. The endpoint applies the requests that are in flight in any order, and
all of them succeed. After a flush every batch was applied exactly once, and the batches in the order in which
they were sent are the documents in their order. Under each id the endpoint has the document that it has when
the documents are written one by one in their order, as the sink in memory does after the same calls, unless the
last request with the id was overtaken by another one with the id that was in flight with it. With a single
lane no request is overtaken.
-/
theorem kept_of_flushed {s : SinkSettings} {processors : Nat} {b : Batcher} (hb : Batcher.of s processors = .ok b)
    {kept : String → Option Document} {cs : List SinkCall} {es : List Event} {w : Served}
    (hrun : Run (start b kept) es w) (hcalls : (Shared.start b).Calls (cs ++ [.flush]) (happenings es) w.shared) :
    (applied es).Perm (sent (happenings es)) ∧ contents (sent (happenings es)) = SinkCall.documents cs ∧
    w.kept = overlay (contents (applied es)) kept ∧
    (∀ id, w.kept id = overlay (SinkCall.documents cs) kept id ∨ Overtaken es id) ∧
    (max 1 (s.concurrency.getD processors) = 1 → w.kept = overlay (SinkCall.documents cs) kept) ∧
    overlay (SinkCall.documents cs) (fun _ => none) = (Shelf.afterCalls (cs ++ [.flush])).document? := by
  obtain ⟨hsettled, hopen⟩ := Batcher.of_eq_ok hb
  obtain ⟨-, hlanes, hsent⟩ := Batcher.settings_of hb
  obtain ⟨hrest, hcontents⟩ := hcalls.flushed hsettled hopen
  have hw := hrun.serves hsettled.flying hsent
  have hpending : w.pending = [] := by
    rw [List.eq_nil_iff_forall_not_mem]
    intro f hf
    obtain ⟨g, hg, -⟩ := hw.flying _ (hw.busy f hf)
    rw [hrest.settled.flying] at hg
    cases hg
  have hkept : ∀ id, w.kept id = overlay (SinkCall.documents cs) kept id ∨ Overtaken es id := by
    intro id
    rw [← hcontents]
    apply hw.kept_eq hpending
    rw [hrun.client.numbers hsent]
    exact List.pairwise_lt_range
  refine ⟨?_, hcontents, hw.documents, hkept, ?_, (Shelf.document?_flushed cs).symm⟩
  · simpa [hpending] using hw.once
  · intro hlane
    funext id
    apply (hkept id).resolve_right
    rintro ⟨f, g, halongside, -⟩
    exact hrun.not_alongside hsettled.flying hsent (hlanes.trans hlane) halongside

/-- Two documents with ids of their own are both kept, although the second one was applied first. -/
theorem kept_of_flushed_apart :
    let d := sampleDocument
    let e : Document := { d with id := "b" }
    ∃ b w, Batcher.of twoLanes 1 = .ok b ∧ Run (start b fun _ => none) (sampleEvents d e) w ∧
      (Shared.start b).Calls ([.index d, .index e] ++ [.flush]) (happenings (sampleEvents d e)) w.shared ∧
      w.kept = (Shelf.afterCalls ([.index d, .index e] ++ [.flush])).document? := by
  intro d e
  obtain ⟨b, w, hb, hrun, hcalls, -⟩ := exists_sample d e fun _ => none
  refine ⟨b, w, hb, hrun, hcalls, ?_⟩
  obtain ⟨-, -, -, hkept, -, hshelf⟩ := kept_of_flushed hb hrun hcalls
  rw [← hshelf]
  funext id
  apply (hkept id).resolve_right
  rintro ⟨f, g, -, hf, hg, hsublist, -⟩
  have happlied : [g, f] = [⟨1, [e]⟩, ⟨0, [d]⟩] := hsublist.eq_of_length rfl
  cases happlied
  have hd : id = "a" := List.mem_singleton.1 hf
  have he : id = "b" := List.mem_singleton.1 hg
  exact absurd (hd.symm.trans he) (by decide)

/-- A document that was indexed twice: the request with the later one was applied first, and the older one is kept. -/
theorem kept_older :
    let d := sampleDocument
    let e : Document := { d with source := .bool true }
    ∃ b w, Batcher.of twoLanes 1 = .ok b ∧ Run (start b fun _ => none) (sampleEvents d e) w ∧
      (Shared.start b).Calls ([.index d, .index e] ++ [.flush]) (happenings (sampleEvents d e)) w.shared ∧
      (sampleEvents d e).getLast? = some (.client (.told () .flush (.ok ()))) ∧
      w.kept d.id = some d ∧ (Shelf.afterCalls ([.index d, .index e] ++ [.flush])).document? d.id = some e ∧ d ≠ e := by
  intro d e
  obtain ⟨b, w, hb, hrun, hcalls, hkept⟩ := exists_sample d e fun _ => none
  refine ⟨b, w, hb, hrun, hcalls, rfl, ?_, ?_, by simp [d, e, sampleDocument]⟩
  · rw [hkept]
    rfl
  · rw [Shelf.document?_flushed]
    rfl

end Served

end Harvesting
