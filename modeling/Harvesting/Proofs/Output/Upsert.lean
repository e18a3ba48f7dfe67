import Mathlib.Data.List.DropRight
import Harvesting.Proofs.Output.Shelf

/-!
# A shelf and its calls

Calls of a shelf one after the other. What was taken is written in order: nothing is lost, written twice or
overtaken, whichever flushes are made to fail.

* `Shelf.Call`, `Shelf.Deed`, `Shelf.serve` — calls, with their answers, and the shelf after them;
* `Shelf.Moves`, `Shelf.moves_call` — the three things that a call can do to the documents;
* `Shelf.taken`, `Shelf.settled` — the documents that were taken, and those of them that a flush wrote;
* `Shelf.sorted_upsert` — the ids on a shelf are in order, each of them once;
* `Shelf.Reckons`, `Shelf.reckons_serve` — the shelf as the calls tell;
* `Shelf.Due`, `Shelf.Due.flushes` — the flush that is due to fail;
* `Shelf.upserts_in_order` — the result.
-/

namespace Harvesting.Shelf

/-! ## Calls -/

/-- What a shelf can be called for. -/
inductive Call where
  | index (d : Document)
  | flush
  | close
  | failNextFlush
  | failFlushAfter (successes : UInt64)

namespace Call

/-- The call makes a flush, which may be part of a close. -/
def flushes : Call → Bool
  | .flush | .close => true
  | _ => false

/-- The call chooses the flush that fails. -/
def chooses : Call → Bool
  | .failNextFlush | .failFlushAfter _ => true
  | _ => false

end Call

/-- The answer to a call, with the shelf after it. -/
def call (s : Shelf) : Call → SinkAnswer Shelf
  | .index d => s.index d
  | .flush => s.flush
  | .close => s.close
  | .failNextFlush => (.ok (), s.failNextFlush)
  | .failFlushAfter n => (.ok (), s.failFlushAfter n)

/-- A call and its answer. -/
structure Deed where
  call : Call
  answer : Except SinkFault Unit

/-- Calls one after the other. -/
def serve (s : Shelf) : List Call → List Deed × Shelf
  | [] => ([], s)
  | c :: cs => (⟨c, (s.call c).1⟩ :: ((s.call c).2.serve cs).1, ((s.call c).2.serve cs).2)

namespace Deed

/-- The document that was taken. -/
def taken? : Deed → Option Document
  | ⟨.index d, .ok ()⟩ => some d
  | _ => none

/-- A flush succeeded. -/
def commits (e : Deed) : Bool := e.call.flushes && e.answer.isOk

end Deed

/-- The documents that were taken, in order. -/
def taken (h : List Deed) : List Document := h.filterMap Deed.taken?

/-- The documents that were taken before the last flush that succeeded, in order. -/
def settled (h : List Deed) : List Document := taken (h.rdropWhile fun e => !e.commits)

/-- The answers of the flushes, in order. -/
def flushAnswers (h : List Deed) : List (Except SinkFault Unit) := (h.filter (·.call.flushes)).map (·.answer)

variable {s s' : Shelf} {c : Call} {a : Except SinkFault Unit} {e : Deed} {h : List Deed} {cs : List Call} {n : Nat}

theorem serve_concat (s : Shelf) (cs : List Call) (c : Call) :
    s.serve (cs ++ [c]) = ((s.serve cs).1 ++ [⟨c, ((s.serve cs).2.call c).1⟩], ((s.serve cs).2.call c).2) := by
  induction cs generalizing s with
  | nil => rfl
  | cons c' cs ih => rw [List.cons_append, serve, ih, serve, List.cons_append]

theorem taken_concat (h : List Deed) (e : Deed) : taken (h ++ [e]) = taken h ++ e.taken?.toList := by
  cases htaken : e.taken? <;> simp [taken, htaken]

theorem settled_commits (he : e.commits = true) : settled (h ++ [e]) = taken (h ++ [e]) := by
  rw [settled, List.rdropWhile_concat_neg]
  simp [he]

theorem settled_other (he : e.commits = false) : settled (h ++ [e]) = settled h := by
  rw [settled, List.rdropWhile_concat_pos]
  · rfl
  · simp [he]

/-! ## What a call does -/

theorem flush_fails (hdue : s.failAt = some (s.attempts + 1)) :
    s.flush = (.error (.transport "injected flush failure"), { s with attempts := s.attempts + 1, failAt := none }) :=
  if_pos hdue

theorem flush_succeeds (hdue : s.failAt ≠ some (s.attempts + 1)) :
    s.flush = (.ok (), { s with
      pending := []
      committed := s.pending.foldl (fun kept d => upsert d kept) s.committed
      flushes := s.flushes + 1
      attempts := s.attempts + 1
      writes := s.writes + s.pending.length }) :=
  if_neg hdue

/-- A close is a flush that closes if it succeeds. -/
theorem close_eq (s : Shelf) : s.close = (s.flush.1, { s.flush.2 with closed := s.flush.2.closed || s.flush.1.isOk }) := by
  rw [close]
  rcases s.flush with ⟨f | ⟨⟩, s'⟩
  · simp [Except.isOk, Except.toBool]
  · simp [Except.isOk, Except.toBool]

/-- What a call with its answer does to the documents. -/
inductive Moves (s s' : Shelf) : Deed → Prop where
  | takes {d : Document} : s' = { s with pending := s.pending ++ [d] } → Moves s s' ⟨.index d, .ok ()⟩
  | commits {c : Call} : c.flushes = true → s'.pending = [] →
      s'.committed = s.pending.foldl (fun kept d => upsert d kept) s.committed →
      s'.flushes = s.flushes + 1 → s'.writes = s.writes + s.pending.length → Moves s s' ⟨c, .ok ()⟩
  | stays {e : Deed} : e.taken? = none → e.commits = false → s'.pending = s.pending → s'.committed = s.committed →
      s'.flushes = s.flushes → s'.writes = s.writes → Moves s s' e

theorem moves_call (h : s.call c = (a, s')) : Moves s s' ⟨c, a⟩ := by
  -- a flush, alone or in a close, commits or fails
  have hflush (closed : Bool) (hc : c.flushes = true) (h : (s.flush.1, { s.flush.2 with closed := closed }) = (a, s')) :
      Moves s s' ⟨c, a⟩ := by
    by_cases hdue : s.failAt = some (s.attempts + 1)
    · rw [flush_fails hdue] at h
      cases h
      refine .stays ?_ (by simp [Deed.commits, Except.isOk, Except.toBool]) rfl rfl rfl rfl
      cases c <;> rfl
    · rw [flush_succeeds hdue] at h
      cases h
      exact .commits hc rfl rfl rfl rfl
  cases c with
  | index d =>
      rw [call, index] at h
      split at h
      · cases h
        exact .stays rfl rfl rfl rfl rfl rfl
      · cases h
        exact .takes rfl
  | flush => exact hflush s.flush.2.closed rfl h
  | close =>
      rw [call, close_eq] at h
      exact hflush _ rfl h
  | failNextFlush =>
      cases h
      exact .stays rfl rfl rfl rfl rfl rfl
  | failFlushAfter n =>
      cases h
      exact .stays rfl rfl rfl rfl rfl rfl

/-! ## Ids in order -/

theorem mem_ids_upsert {d : Document} {l : List Document} {id : String} (hmem : id ∈ (upsert d l).map (·.id)) :
    id = d.id ∨ id ∈ l.map (·.id) := by
  have hfound : ((upsert d l).find? (·.id = id)).isSome = true := by
    obtain ⟨e, he, rfl⟩ := List.mem_map.1 hmem
    exact List.find?_isSome.2 ⟨e, he, by simp⟩
  rw [find?_upsert] at hfound
  split at hfound
  · next hid => exact .inl hid.symm
  · obtain ⟨e, he, hid⟩ := List.find?_isSome.1 hfound
    exact .inr (List.mem_map.2 ⟨e, he, by simpa using hid⟩)

/-- A document that is put on a shelf leaves the ids in order. -/
theorem sorted_upsert (d : Document) {l : List Document} (hl : (l.map (·.id)).Pairwise (· < ·)) :
    ((upsert d l).map (·.id)).Pairwise (· < ·) := by
  induction l with
  | nil => exact List.pairwise_singleton _ _
  | cons e l ih =>
      obtain ⟨hfirst, hrest⟩ := List.pairwise_cons.1 hl
      rw [upsert]
      split
      · next hsame =>
        rw [List.map_cons, hsame]
        exact List.pairwise_cons.2 ⟨hfirst, hrest⟩
      split
      · next hbefore =>
        refine List.pairwise_cons.2 ⟨?_, hl⟩
        intro id hid
        rcases List.mem_cons.1 hid with rfl | hid
        · exact hbefore
        · exact String.lt_trans hbefore (hfirst id hid)
      · next hother hbefore =>
        have hbehind : e.id < d.id := Std.lt_of_le_of_ne (String.not_lt.1 hbefore) (Ne.symm hother)
        refine List.pairwise_cons.2 ⟨?_, ih hrest⟩
        intro id hid
        rcases mem_ids_upsert hid with rfl | hid
        · exact hbehind
        · exact hfirst id hid

theorem sorted_foldl_upsert (ds : List Document) {l : List Document} (hl : (l.map (·.id)).Pairwise (· < ·)) :
    ((ds.foldl (fun kept d => upsert d kept) l).map (·.id)).Pairwise (· < ·) := by
  induction ds generalizing l with
  | nil => exact hl
  | cons d ds ih => exact ih (sorted_upsert d hl)

/-! ## The shelf as the calls tell -/

/-- The shelf after some calls of an empty one. -/
structure Reckons (h : List Deed) (s : Shelf) : Prop where
  taken : taken h = settled h ++ s.pending
  document : ∀ id, s.document? id = (settled h).reverse.find? (·.id = id)
  sorted : s.committedIds.Pairwise (· < ·)
  writes : s.writes = (settled h).length
  flushes : s.flushes = h.countP Deed.commits

theorem reckons_empty : Reckons [] empty := ⟨rfl, fun _ => rfl, .nil, rfl, rfl⟩

theorem Reckons.move (hs : Reckons h s) (hmoves : Moves s s' e) : Reckons (h ++ [e]) s' := by
  cases hmoves with
  | @takes d hs' =>
      have hother : Deed.commits ⟨.index d, .ok ()⟩ = false := rfl
      have hsettled := settled_other (h := h) hother
      subst hs'
      refine ⟨?_, ?_, hs.sorted, ?_, ?_⟩
      · rw [taken_concat, hsettled, hs.taken, List.append_assoc]
        rfl
      · rw [hsettled]
        exact hs.document
      · rw [hsettled]
        exact hs.writes
      · rw [List.countP_append, List.countP_singleton, if_neg (by simp [hother])]
        exact hs.flushes
  | @commits c hc hpending hcommitted hflushes hwrites =>
      have hcommits : Deed.commits ⟨c, .ok ()⟩ = true := by
        rw [Deed.commits, hc]
        rfl
      have htaken : Shelf.taken (h ++ [⟨c, .ok ()⟩]) = settled h ++ s.pending := by
        have hnone : Deed.taken? ⟨c, .ok ()⟩ = none := by cases c <;> first | rfl | cases hc
        rw [taken_concat, hnone, Option.toList_none, List.append_nil, hs.taken]
      have hsettled := (settled_commits (h := h) hcommits).trans htaken
      refine ⟨?_, ?_, ?_, ?_, ?_⟩
      · rw [htaken, hsettled, hpending, List.append_nil]
      · -- of one id, what was waiting comes after what was written before
        intro id
        have hbefore : s.document? id = overlay (settled h) (fun _ => none) id := by
          rw [hs.document id, overlay, Option.or_none]
        rw [document?, hcommitted, find?_foldl_upsert, hsettled, List.reverse_append, List.find?_append]
        rw [overlay, ← document?, hs.document id]
      · rw [committedIds, hcommitted]
        exact sorted_foldl_upsert s.pending hs.sorted
      · rw [hwrites, hs.writes, hsettled, List.length_append]
      · rw [List.countP_append, List.countP_singleton, if_pos hcommits, hflushes, hs.flushes]
  | stays htaken hother hpending hcommitted hflushes hwrites =>
      have hsettled := settled_other (h := h) hother
      refine ⟨?_, ?_, ?_, ?_, ?_⟩
      · rw [taken_concat, htaken, hsettled, hpending, Option.toList_none, List.append_nil, hs.taken]
      · intro id
        rw [hsettled, document?, hcommitted]
        exact hs.document id
      · rw [committedIds, hcommitted]
        exact hs.sorted
      · rw [hwrites, hs.writes, hsettled]
      · rw [List.countP_append, List.countP_singleton, if_neg (by simp [hother]), hflushes, hs.flushes]
        rfl

theorem reckons_serve (cs : List Call) : Reckons (empty.serve cs).1 (empty.serve cs).2 := by
  induction cs using List.reverseRecOn with
  | nil => exact reckons_empty
  | append_singleton cs c ih =>
      rw [serve_concat]
      exact ih.move (moves_call rfl)

/-! ## Flushes that fail -/

/-- The flush after so many others is due to fail, or none is. -/
def Due (s : Shelf) (left : Option UInt64) : Prop := s.failAt = left.map (s.attempts + · + 1)

/-- One flush later. -/
def oneOn (left : Option UInt64) : Option UInt64 := left.bind fun n => if n = 0 then none else some (n - 1)

theorem due_failFlushAfter (s : Shelf) (n : UInt64) : (s.failFlushAfter n).Due (some n) := rfl

theorem oneOn_toNat (left : Option UInt64) (k : Nat) :
    (oneOn left).map UInt64.toNat = some k ↔ left.map UInt64.toNat = some (k + 1) := by
  cases left with
  | none => simp [oneOn]
  | some n =>
      by_cases hzero : n = 0
      · simp [oneOn, hzero]
      · have hpos : 0 < n.toNat := Nat.pos_of_ne_zero fun h => hzero (UInt64.toNat_inj.1 h)
        have hone : (n - 1).toNat = n.toNat - 1 :=
          UInt64.toNat_sub_of_le _ _ (UInt64.le_iff_toNat_le.2 hpos)
        simp only [oneOn, Option.bind_some, if_neg hzero, Option.map_some, Option.some.injEq, hone]
        omega

theorem Due.flush {left : Option UInt64} (hs : s.Due left) :
    s.flush.1 = (if left = some 0 then .error (.transport "injected flush failure") else .ok ()) ∧
      s.flush.2.Due (oneOn left) := by
  rw [Due] at hs
  match left with
  | none =>
      rw [flush_succeeds (by simp [hs])]
      exact ⟨rfl, hs⟩
  | some n =>
      by_cases hzero : n = 0
      · subst hzero
        rw [flush_fails (by simp [hs])]
        exact ⟨rfl, rfl⟩
      · -- the number of the flush that is due is not the next one, also where it wrapped
        have hother : s.attempts + n + 1 ≠ s.attempts + 1 := by grind
        rw [flush_succeeds (by simpa [hs] using hother), if_neg (by simpa using hzero)]
        refine ⟨rfl, ?_⟩
        have hnext : s.attempts + 1 + (n - 1) + 1 = s.attempts + n + 1 := by grind
        rw [Due, oneOn, Option.bind_some, if_neg hzero, Option.map_some]
        exact hs.trans (congrArg some hnext.symm)

/-- Any call that does not choose a flush leaves the one that is due, or is a flush. -/
theorem Due.call {left : Option UInt64} (hs : s.Due left) (hc : c.chooses = false) :
    (c.flushes = false ∧ (s.call c).2.Due left) ∨
      (c.flushes = true ∧ (s.call c).1 = s.flush.1 ∧ (s.call c).2.Due (oneOn left)) := by
  cases c with
  | index d =>
      refine .inl ⟨rfl, ?_⟩
      rw [Shelf.call, index]
      split <;> exact hs
  | flush => exact .inr ⟨rfl, rfl, hs.flush.2⟩
  | close =>
      rw [Shelf.call, close_eq]
      exact .inr ⟨rfl, rfl, hs.flush.2⟩
  | failNextFlush => cases hc
  | failFlushAfter n => cases hc

/-- The flush that is due fails, and no other one. -/
theorem Due.flushes {left : Option UInt64} {k : Nat} (hs : s.Due left) (hcs : ∀ c ∈ cs, c.chooses = false)
    (hk : (flushAnswers (s.serve cs).1)[k]? = some a) :
    a = if left.map UInt64.toNat = some k then .error (.transport "injected flush failure") else .ok () := by
  induction cs generalizing s left k with
  | nil => cases hk
  | cons c cs ih =>
      obtain ⟨hc, hcs⟩ := List.forall_mem_cons.1 hcs
      rw [serve, flushAnswers, List.filter_cons] at hk
      rcases hs.call hc with ⟨hflushes, hs'⟩ | ⟨hflushes, hanswer, hs'⟩
      · rw [if_neg (by simp [hflushes])] at hk
        exact ih hs' hcs hk
      · rw [if_pos hflushes, List.map_cons] at hk
        cases k with
        | zero =>
            cases hk
            rw [hanswer, hs.flush.1]
            cases left <;> simp [← UInt64.toNat_inj]
        | succ k =>
            rw [List.getElem?_cons_succ] at hk
            simp only [ih hs' hcs hk, oneOn_toNat]

/--
A shelf that is called again and again, from an empty one. The documents that were taken are, in order, those
that are settled and those that wait. So many documents were written as are settled, and each flush that
succeeded is counted, also within a close. Under an id there is the settled document that was taken last, and
the ids are listed in order, each of them once. A flush that fails, or a close, changes neither what waits nor
what is on the shelf. Of the flushes after a choice, up to the next one, the chosen one fails and all others
succeed.
-/
theorem upserts_in_order :
    (∀ cs h s, empty.serve cs = (h, s) →
      taken h = settled h ++ s.pending ∧ s.writes = (settled h).length ∧ s.flushes = h.countP Deed.commits ∧
      (∀ id, s.document? id = (settled h).reverse.find? (·.id = id)) ∧
      (∀ id, id ∈ s.committedIds ↔ id ∈ (settled h).map (·.id)) ∧ s.committedIds.Pairwise (· < ·)) ∧
    (∀ (s s' : Shelf) c f, c.flushes = true → s.call c = (.error f, s') →
      s'.pending = s.pending ∧ s'.committed = s.committed) ∧
    ∀ (s : Shelf) (n : UInt64) cs, (∀ c ∈ cs, c.chooses = false) →
      ∀ k a, (flushAnswers ((s.failFlushAfter n).serve cs).1)[k]? = some a →
        a = if k = n.toNat then .error (.transport "injected flush failure") else .ok () := by
  refine ⟨?_, ?_, ?_⟩
  · intro cs h s hserve
    have hs := reckons_serve cs
    rw [hserve] at hs
    refine ⟨hs.taken, hs.writes, hs.flushes, hs.document, ?_, hs.sorted⟩
    intro id
    rw [mem_committedIds, hs.document id, List.find?_isSome]
    simp
  · intro s s' c f hc hfails
    cases moves_call hfails with
    | stays _ _ hpending hcommitted _ _ => exact ⟨hpending, hcommitted⟩
  · intro s n cs hcs k a hk
    rw [(due_failFlushAfter s n).flushes hcs hk]
    simp [eq_comm]

/-- Two documents of one id, of which a failed close leaves the second one waiting. -/
def interrupted : List Call :=
  [.index ⟨"b", "oai", none, .null⟩, .index ⟨"a", "oai", none, .null⟩, .failFlushAfter 1, .flush,
    .index ⟨"b", "oai", some "t", .null⟩, .close]

/-- What `interrupted` leaves behind, from its calls and on the shelf; its last flush is the chosen one. -/
theorem upserts_in_order_interrupted :
    let h := (empty.serve interrupted).1
    let s := (empty.serve interrupted).2
    let before := (empty.serve interrupted.dropLast).2
    (taken h = settled h ++ s.pending ∧ s.writes = 2 ∧ s.flushes = 1 ∧ s.committedIds = ["a", "b"] ∧
      (s.document? "b").map (·.docType) = some none ∧ s.pending.map (·.docType) = [some "t"]) ∧
    ((before.call .close).1.isOk = false ∧ s.pending = before.pending ∧ s.committed = before.committed) ∧
    ∀ a, (flushAnswers ((empty.failFlushAfter 1).serve [.flush, .close, .flush]).1)[1]? = some a →
      a = .error (.transport "injected flush failure") := by
  obtain ⟨hserved, hfails, hflushes⟩ := upserts_in_order
  obtain ⟨htaken, hwrites, hflushed, -, -, -⟩ := hserved interrupted _ _ rfl
  have hclose := hfails (empty.serve interrupted.dropLast).2 (empty.serve interrupted).2 .close _ rfl rfl
  refine ⟨⟨htaken, hwrites.trans (by decide +kernel), hflushed.trans (by decide +kernel), by decide +kernel,
    by decide +kernel, by decide +kernel⟩, ⟨rfl, hclose⟩, ?_⟩
  intro a ha
  exact hflushes empty 1 [.flush, .close, .flush] (by decide) 1 a ha

end Harvesting.Shelf
