import Harvesting.Proofs.Protocol.Frame
import Harvesting.Proofs.Protocol.Rendered

/-!
# Places in a response

The pieces of a text that is continued are those of the text and those of its continuation, unless
character data runs on from the one into the other. So what is read from a response is decided, at any
place between two pieces, by the reading there and by what follows.

    pre ++ rest ──outcome──▶ the outcome of the pieces of rest, from the reading behind pre

* `Markup.pieces_append`, `Markup.pieces_block` — the pieces of a text that is continued;
* `Envelope.ReadsTo`, `Envelope.ReadsTo.part` — the reading at a place, and the place behind a part;
* `Envelope.outcome` — what is read from a response, or what is wrong with it; `Envelope.outcome_append`;
* `Envelope.Reading.outcome_upTo` — how many bytes were read before does not matter.
-/

namespace Harvesting

open Markup

/-! ## Texts that are continued -/

namespace Markup

variable {cs rest : List Char} {p : Piece} {ps : List Piece}

/-- The last piece is markup. -/
def EndsInMarkup (ps : List Piece) : Prop := ∃ p, ps.getLast? = some p ∧ p.isText = false

theorem EndsInMarkup.tail (h : EndsInMarkup (p :: ps)) (hps : ps ≠ []) : EndsInMarkup ps := by
  obtain ⟨q, hlast, hq⟩ := h
  obtain ⟨x, xs, rfl⟩ := List.exists_cons_of_ne_nil hps
  rw [List.getLast?_cons_cons] at hlast
  exact ⟨q, hlast, hq⟩

theorem pieces_ne_nil (h : cs ≠ []) : pieces cs ≠ [] := by
  obtain ⟨c, r, rfl⟩ := List.exists_cons_of_ne_nil h
  rw [pieces_cons]
  exact List.cons_ne_nil _ _

theorem StartsMarkup.append (h : StartsMarkup cs) (hrest : cs = [] → StartsMarkup rest) : StartsMarkup (cs ++ rest) := by
  cases cs with
  | nil => exact hrest rfl
  | cons c r => exact h

theorem pieces_append_markup {r : List Char} (hsound : (markup r).1.isBroken = false)
    (ih : pieces ((markup r).2 ++ rest) = pieces (markup r).2 ++ pieces rest) :
    pieces ('<' :: r ++ rest) = pieces ('<' :: r) ++ pieces rest := by
  cases hr : markup r with
  | mk p after =>
      rw [hr] at hsound ih
      obtain ⟨tail, -, rfl, htake⟩ := takesAt_markup r p after hr hsound
      rw [List.cons_append, pieces_cons, pieces_cons, firstPiece_markup, firstPiece_markup, List.append_assoc,
        htake, htake, ih, List.cons_append]

theorem pieces_append_text {c : Char} {r : List Char} (hc : c ≠ '<')
    (hmeet : r.dropWhile (· ≠ '<') = [] → StartsMarkup rest)
    (ih : pieces (r.dropWhile (· ≠ '<') ++ rest) = pieces (r.dropWhile (· ≠ '<')) ++ pieces rest) :
    pieces (c :: r ++ rest) = pieces (c :: r) ++ pieces rest := by
  have hw : ∀ x ∈ c :: r.takeWhile (· ≠ '<'), x ≠ '<' := by
    intro x hx
    rcases List.mem_cons.1 hx with rfl | hx
    · exact hc
    · simpa using List.all_eq_true.1 List.all_takeWhile x hx
  have hsplit : c :: r ++ rest = (c :: r.takeWhile (· ≠ '<')) ++ (r.dropWhile (· ≠ '<') ++ rest) := by
    rw [← List.append_assoc]
    exact congrArg (c :: · ++ rest) List.takeWhile_append_dropWhile.symm
  rw [hsplit, pieces_text (List.cons_ne_nil _ _) hw ((starts_dropWhile r).append hmeet), ih, pieces_cons,
    firstPiece_text hc, List.cons_append]

/-- The pieces of a text that is continued, if no character data runs on. -/
theorem pieces_append (hsound : ∀ p ∈ pieces cs, p.isBroken = false)
    (hmeet : StartsMarkup rest ∨ cs = [] ∨ EndsInMarkup (pieces cs)) :
    pieces (cs ++ rest) = pieces cs ++ pieces rest := by
  -- piece by piece, as `pieces` goes; only the last one meets the continuation
  induction cs using pieces.induct with
  | case1 => rw [List.nil_append, pieces, List.nil_append]
  | case2 c r ih =>
      rw [pieces_cons] at hsound hmeet
      have hnext : StartsMarkup rest ∨ (firstPiece c r).2 = [] ∨ EndsInMarkup (pieces (firstPiece c r).2) := by
        by_cases hdone : (firstPiece c r).2 = []
        · exact .inr (.inl hdone)
        · rcases hmeet with h | h | h
          · exact .inl h
          · cases h
          · exact .inr (.inr (h.tail (pieces_ne_nil hdone)))
      have hrest := ih (fun p hp => hsound p (List.mem_cons_of_mem _ hp)) hnext
      have hfirst := hsound _ List.mem_cons_self
      by_cases hopen : c = '<'
      · subst hopen
        rw [firstPiece_markup] at hrest hfirst
        exact pieces_append_markup hfirst hrest
      · rw [firstPiece_text hopen] at hrest hmeet
        apply pieces_append_text hopen _ hrest
        intro hdone
        rcases hmeet with h | h | ⟨q, hlast, hq⟩
        · exact h
        · cases h
        · -- nothing follows the character data, so it would be the last piece
          simp only at hlast
          rw [hdone, pieces] at hlast
          cases hlast
          cases hq

theorem Piece.Proper.not_broken (h : p.Proper) : p.isBroken = false := by
  cases p with
  | broken _ _ => exact h.elim
  | _ => rfl

/-- Pieces that can stand anywhere do not end in character data. -/
theorem Block.endsInMarkup (h : Block ps) (hne : ps ≠ []) : EndsInMarkup ps := by
  obtain ⟨init, p, rfl⟩ := (List.eq_nil_or_concat ps).resolve_left hne
  rw [List.concat_eq_append] at h ⊢
  refine ⟨p, List.getLast?_concat .., ?_⟩
  have htext : Separate ([] ++ ((init ++ [p]) ++ [Piece.text []])) := h [] _ separate_nil (separate_single _)
  rw [List.nil_append, List.append_assoc] at htext
  have hpair := (List.isChain_append.1 htext).2.1
  exact ((List.isChain_cons_cons.1 hpair).1).resolve_right (by simp [Piece.isText])

/-- Pieces that can stand anywhere are read as they were written, whatever follows them. -/
theorem pieces_block (hps : ∀ p ∈ ps, p.Proper) (hblock : Block ps) (rest : List Char) :
    pieces (ps.flatMap Piece.source ++ rest) = ps ++ pieces rest := by
  have hseparate : Separate ps := by
    have hwhole := hblock [] [] separate_nil separate_nil
    rwa [List.nil_append, List.append_nil] at hwhole
  have hpieces := pieces_flatMap_source hps hseparate
  by_cases hne : ps = []
  · rw [hne]
    rfl
  · rw [pieces_append, hpieces]
    · rw [hpieces]
      exact fun p hp => (hps p hp).not_broken
    · rw [hpieces]
      exact .inr (.inr (hblock.endsInMarkup hne))

end Markup

namespace Envelope

namespace Reading

variable {s s' : Reading} {p : Piece} {ps qs : List Piece}

theorem not_broken_of_run (h : ps.foldlM step s = .ok s') : ∀ p ∈ ps, p.isBroken = false := by
  induction ps generalizing s with
  | nil => exact List.forall_mem_nil _
  | cons p ps ih =>
      rw [List.foldlM_cons] at h
      obtain ⟨s₁, h₁, h⟩ := bind_eq_ok.1 h
      apply List.forall_mem_cons.2 ⟨?_, ih h⟩
      cases hbroken : p.isBroken with
      | false => rfl
      | true =>
          obtain ⟨f, hf⟩ := s.step_broken hbroken
          cases h₁.symm.trans hf

/-! ## How many bytes were read -/

theorem characters_upTo (s : Reading) (n : Nat) (cs : List Char) :
    (s.upTo n).characters cs = (s.characters cs).upTo n := by
  obtain ⟨envelope, record, inHeader, field, payload, opened, offset⟩ := s
  cases field with
  | none => rfl
  | some f => cases f <;> rfl

theorem text_upTo (s : Reading) (n : Nat) (cs : List Char) : (s.upTo n).text cs = (s.text cs).map (·.upTo n) := by
  rw [text, text]
  show (if s.field.isNone ∨ strip cs = [] then _ else _) = _
  split
  · rfl
  · cases unescape (strip cs) with
    | error f => rfl
    | ok out =>
        show Except.ok ((s.upTo n).characters out) = _
        rw [characters_upTo]
        rfl

theorem header_upTo (s : Reading) (n : Nat) (body : List Char) :
    (s.upTo n).header body = (s.header body).map (·.upTo n) := by
  rw [header_eq, header_eq]
  cases Tag.attribute? deletedStatus.1 body with
  | error f => rfl
  | ok status =>
      simp only [Except.map]
      split <;> rfl

theorem error_upTo (s : Reading) (n : Nat) (body : List Char) :
    (s.upTo n).error body = (s.error body).map (·.upTo n) := by
  rw [error_eq, error_eq]
  cases Tag.attribute? "code" body <;> rfl

theorem openTag_upTo (s : Reading) (n : Nat) (body : List Char) :
    (s.upTo n).openTag body = (s.openTag body).map (·.upTo n) := by
  rw [openTag, openTag]
  cases Element.ofTag body with
  | record | other => rfl
  | header =>
      show (if s.record.isSome then _ else _) = Except.map _ (if s.record.isSome then _ else _)
      split
      · exact header_upTo { s with inHeader := true } n body
      · rfl
  | metadata =>
      show (if s.record.isSome then _ else _) = Except.map _ (if s.record.isSome then _ else _)
      split <;> rfl
  | field f =>
      cases f with
      | token => rfl
      | error =>
          show (do return { ← (s.upTo n).error body with field := some .error }) = _
          rw [error_upTo]
          cases s.error body <;> rfl
      | identifier | datestamp | setSpec =>
          show Except.ok (if s.inHeader then _ else _) = Except.map _ (.ok (if s.inHeader then _ else _))
          split <;> rfl

theorem emptyTag_upTo (s : Reading) (n : Nat) (body : List Char) :
    (s.upTo n).emptyTag body = (s.emptyTag body).map (·.upTo n) := by
  rw [emptyTag, emptyTag]
  cases Element.ofTag body with
  | record | metadata | other => rfl
  | header =>
      show (if s.record.isSome then _ else _) = Except.map _ (if s.record.isSome then _ else _)
      split
      · exact header_upTo s n body
      · rfl
  | field f =>
      cases f with
      | error => exact error_upTo s n body
      | _ => rfl

theorem outside_upTo (s : Reading) (n : Nat) (p : Piece) : (s.upTo n).outside p = (s.outside p).map (·.upTo n) := by
  cases p with
  | text cs => exact text_upTo s n cs
  | characters cs => exact congrArg Except.ok (characters_upTo s n cs)
  | opening body => exact openTag_upTo s n body
  | single body => exact emptyTag_upTo s n body
  | closing body => exact congrArg Except.ok (upTo_closeTag s n body)
  | _ => rfl

theorem inside_upTo (s : Reading) (n : Nat) (q : Payload) (opened : List (List Char)) (p : Piece) :
    (s.upTo n).inside q opened p = (s.inside q opened p).upTo n := by
  rw [inside, inside]
  split <;> rfl

/-- The reading with one more piece, inside metadata or outside. -/
def taken (s : Reading) (opened : List (List Char)) (p : Piece) : Except Markup.Fault Reading :=
  match s.payload with
  | some q => .ok (s.inside q opened p)
  | none => s.outside p

theorem taken_payload {q : Payload} (h : s.payload = some q) (opened : List (List Char)) (p : Piece) :
    s.taken opened p = .ok (s.inside q opened p) := by
  rw [taken, h]

theorem taken_outside (h : s.payload = none) (opened : List (List Char)) (p : Piece) :
    s.taken opened p = s.outside p := by
  rw [taken, h]

theorem taken_upTo (s : Reading) (n : Nat) (opened : List (List Char)) (p : Piece) :
    (s.upTo n).taken opened p = (s.taken opened p).map (·.upTo n) := by
  cases hpayload : s.payload with
  | some q =>
      have hsame : (s.upTo n).payload = some q := hpayload
      rw [taken_payload hpayload, taken_payload hsame, inside_upTo]
      rfl
  | none =>
      have hsame : (s.upTo n).payload = none := hpayload
      rw [taken_outside hpayload, taken_outside hsame, outside_upTo]

/-- What one more piece does, but for the places of faults. -/
theorem step_cause (s : Reading) (p : Piece) : (s.step p).mapError Fault.cause =
    (nest s.opened p).bind fun opened => (s.taken opened p).map fun s' =>
      { s' with opened, offset := s.offset + Utf8.length p.source } := by
  cases hnest : nest s.opened p with
  | error f =>
      rw [step, hnest]
      rfl
  | ok opened =>
      show _ = (s.taken opened p).map _
      cases hpayload : s.payload with
      | some q =>
          rw [step_inside hpayload hnest, taken_payload hpayload]
          rfl
      | none =>
          rw [taken_outside hpayload]
          cases houtside : s.outside p with
          | error f =>
              rw [step_outside_error hpayload hnest houtside]
              rfl
          | ok s₁ =>
              rw [step_outside hpayload hnest houtside]
              rfl

theorem step_upTo (s : Reading) (n : Nat) (p : Piece) :
    ((s.upTo n).step p).mapError Fault.cause =
      ((s.step p).mapError Fault.cause).map (·.upTo (n + Utf8.length p.source)) := by
  rw [step_cause, step_cause]
  show (nest s.opened p).bind _ = _
  cases nest s.opened p with
  | error f => rfl
  | ok opened =>
      show ((s.upTo n).taken opened p).map _ = ((s.taken opened p).map _).map _
      rw [taken_upTo]
      cases s.taken opened p <;> rfl

/-- What is read from the pieces that follow, or what is wrong with them. -/
def outcome (s : Reading) (ps : List Piece) : Except Markup.Fault Envelope :=
  (do (← ps.foldlM step s).finish).mapError Fault.cause

theorem outcome_cons (s : Reading) (p : Piece) (ps : List Piece) :
    s.outcome (p :: ps) = (do (← (s.step p).mapError Fault.cause).outcome ps) := by
  rw [outcome, List.foldlM_cons]
  cases s.step p <;> rfl

theorem outcome_upTo (s : Reading) (n : Nat) (ps : List Piece) : (s.upTo n).outcome ps = s.outcome ps := by
  induction ps generalizing s n with
  | nil => rfl
  | cons p ps ih =>
      rw [outcome_cons, outcome_cons, step_upTo]
      cases (s.step p).mapError Fault.cause with
      | error f => rfl
      | ok s₁ => exact ih s₁ _

/-- Pieces that were read leave the outcome of the others. -/
theorem outcome_append (h : ps.foldlM step s = .ok s') (qs : List Piece) : s.outcome (ps ++ qs) = s'.outcome qs := by
  rw [outcome, List.foldlM_append, h]
  rfl

theorem Carries.outcome_eq (h : Carries s ps s') (qs : List Piece) : s.outcome (ps ++ qs) = s'.outcome qs := by
  obtain ⟨n, hrun⟩ := h s.offset
  exact (outcome_append (s := s) hrun qs).trans (outcome_upTo s' n qs)

/-- The same reading with other elements open. -/
def amid (s : Reading) (opened : List (List Char)) : Reading := { s with opened }

theorem outcome_outside {outer : List (List Char)} (hpayload : s.payload = none)
    (hnest : nest s.opened p = .ok outer) (ps : List Piece) :
    s.outcome (p :: ps) = (s.outside p).bind fun s' => (s'.amid outer).outcome ps := by
  rw [outcome_cons, step_cause, hnest]
  show (((s.taken outer p).map _) >>= _) = _
  rw [taken_outside hpayload]
  cases s.outside p with
  | error f => rfl
  | ok s₁ => exact outcome_upTo (s₁.amid outer) _ ps

theorem outcome_nil (hpayload : s.payload = none) : s.outcome [] = .ok s.envelope := by
  show (s.finish).mapError _ = _
  rw [finish, hpayload]
  rfl

/-- A part leaves the outcome of what follows it. -/
theorem Part.outcome_eq {cs : List Char} (h : Part s cs s') (rest : List Char) :
    s.outcome (pieces (cs ++ rest)) = s'.outcome (pieces rest) := by
  obtain ⟨ps, rfl, hproper, hblock, hcarries⟩ := h
  rw [pieces_block hproper hblock, hcarries.outcome_eq]

end Reading

/-! ## Responses that are continued -/

variable {pre rest : List Char} {s : Reading}

/-- The text before a place is read as far as `s`. -/
def ReadsTo (pre : List Char) (s : Reading) : Prop := (pieces (withoutMark pre)).foldlM Reading.step .start = .ok s

/-- What is read from a response, or what is wrong with it, wherever that is. -/
def outcome (body : List Char) : Except Markup.Fault Envelope := (read body).mapError Fault.cause

theorem withoutMark_append (h : pre ≠ []) (rest : List Char) : withoutMark (pre ++ rest) = withoutMark pre ++ rest := by
  obtain ⟨c, r, rfl⟩ := List.exists_cons_of_ne_nil h
  by_cases hmark : c = '\uFEFF'
  · subst hmark
    rfl
  · have hfirst : ∀ x ∈ (c :: r).head?, x ≠ '\uFEFF' := by
      rintro _ ⟨⟩
      exact hmark
    rw [withoutMark_of_first hfirst]
    exact withoutMark_of_first hfirst

theorem withoutMark_starts (h : StartsMarkup rest) : withoutMark rest = rest := by
  apply withoutMark_of_first
  rintro c hc rfl
  cases h _ hc

/-- The pieces of a response that is continued at a place. -/
theorem ReadsTo.pieces_eq (h : ReadsTo pre s) (hmeet : StartsMarkup rest ∨ EndsInMarkup (pieces (withoutMark pre))) :
    pieces (withoutMark (pre ++ rest)) = pieces (withoutMark pre) ++ pieces rest := by
  by_cases hpre : pre = []
  · subst hpre
    have hempty : pieces (withoutMark []) = [] := by
      show pieces [] = []
      rw [pieces]
    have hrest : StartsMarkup rest := by
      rcases hmeet with hrest | ⟨_, hlast, -⟩
      · exact hrest
      · rw [hempty] at hlast
        cases hlast
    rw [hempty, List.nil_append, List.nil_append, withoutMark_starts hrest]
  · rw [withoutMark_append hpre, pieces_append (Reading.not_broken_of_run h) (hmeet.imp_right .inr)]

/-- What follows a place is read on from the reading there. -/
theorem outcome_append (h : ReadsTo pre s) (hmeet : StartsMarkup rest ∨ EndsInMarkup (pieces (withoutMark pre))) :
    outcome (pre ++ rest) = s.outcome (pieces rest) := by
  have hread : outcome (pre ++ rest) = Reading.start.outcome (pieces (withoutMark pre) ++ pieces rest) := by
    rw [outcome, read, h.pieces_eq hmeet]
    rfl
  rw [hread, Reading.outcome_append h]

/-- Behind a part there is another place. -/
theorem ReadsTo.part {s' : Reading} {cs : List Char} {n : Nat} (h : ReadsTo pre (s.upTo n))
    (hends : EndsInMarkup (pieces (withoutMark pre))) (hpart : Reading.Part s cs s') :
    EndsInMarkup (pieces (withoutMark (pre ++ cs))) ∧ ∃ m, ReadsTo (pre ++ cs) (s'.upTo m) := by
  obtain ⟨ps, rfl, hproper, hblock, hcarries⟩ := hpart
  have hps : pieces (ps.flatMap Piece.source) = ps := by
    have hwhole := pieces_block hproper hblock []
    rwa [pieces, List.append_nil, List.append_nil] at hwhole
  have hpieces : pieces (withoutMark (pre ++ ps.flatMap Piece.source)) = pieces (withoutMark pre) ++ ps := by
    rw [h.pieces_eq (.inr hends), hps]
  constructor
  · rw [hpieces]
    by_cases hne : ps = []
    · rwa [hne, List.append_nil]
    · obtain ⟨q, hlast, hq⟩ := hblock.endsInMarkup hne
      exact ⟨q, by rw [List.getLast?_append, hlast, Option.some_or], hq⟩
  · obtain ⟨m, hrun⟩ := hcarries n
    refine ⟨m, ?_⟩
    rw [ReadsTo, hpieces, List.foldlM_append, h]
    exact hrun

end Envelope

end Harvesting
