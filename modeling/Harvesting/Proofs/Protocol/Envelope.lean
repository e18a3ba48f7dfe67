import Harvesting.Proofs.Cycle.Finished
import Harvesting.Proofs.Markup.Entity
import Harvesting.Protocol.Envelope

/-!
# Responses that are cut off

A well-formed response is read to its end. Of a response that is cut off, the reader notices a cut
through markup, a cut inside metadata and a cut through an entity of a value that it reads; a harvest
that gets such a response fails. It does not notice any other cut, and takes the part for the whole.

* `WellFormed` — texts of closed markup, legible character data and nested elements;
* `Envelope.exists_read` — a well-formed response can be read;
* `Envelope.Refused` — a response is refused, and the cycle that gets it fails;
* `Envelope.refused_iff` — the cuts that are noticed;
* `Envelope.taken_for_whole` — one that is not.
-/

namespace Harvesting

namespace Markup

/-- The piece can stand in a well-formed text. Its entities are predefined or name a code point. -/
def Piece.WellFormed : Piece → Prop
  | .text cs => Legible cs
  | .opening body | .single body => ∀ key, ∃ value, Tag.attribute? key body = .ok value
  | .broken _ _ => False
  | _ => True

/-- The pieces are well-formed, and every element is closed. -/
structure WellFormed (cs : List Char) : Prop where
  all : ∀ p ∈ pieces cs, p.WellFormed
  nested : (pieces cs).foldlM nest [] = .ok []

theorem Piece.WellFormed.not_broken {p : Piece} (h : p.WellFormed) : p.isBroken = false := by
  cases p <;> first | rfl | exact h.elim

/-- The piece has neither entities nor attributes. -/
def Piece.isPlain : Piece → Bool
  | .text cs => '&' ∉ cs
  | .opening body | .single body => body.all (!isSpace ·)
  | .broken _ _ => false
  | _ => true

theorem legible_of_notMem {cs : List Char} (h : '&' ∉ cs) : Legible cs := by
  induction cs with
  | nil => exact .nil
  | cons c r ih =>
      rw [List.mem_cons, not_or] at h
      exact .char (Ne.symm h.1) (ih h.2)

theorem attribute?_bare {body : List Char} (h : body.all (!isSpace ·) = true) (key : String) :
    Tag.attribute? key body = .ok none := by
  have hrest : (body ++ []).dropWhile (!isSpace ·) = [] :=
    List.dropWhile_append_of_pos (List.all_eq_true.1 h)
  rw [List.append_nil] at hrest
  rw [Tag.attribute?, hrest, Tag.find?]
  rfl

theorem wellFormed_of_isPlain {p : Piece} (h : p.isPlain = true) : p.WellFormed := by
  cases p with
  | text cs => exact legible_of_notMem (of_decide_eq_true h)
  | opening body => exact fun key => ⟨none, attribute?_bare h key⟩
  | single body => exact fun key => ⟨none, attribute?_bare h key⟩
  | broken _ _ => cases h
  | _ => trivial

end Markup

open Markup

namespace Envelope

namespace Reading

variable {s s' : Reading} {p : Piece} {opened : List (List Char)}

/-! ## One piece -/

/-- Metadata that is being read is inside an element that is open. -/
def Nested (s : Reading) : Prop := ∀ q, s.payload = some q → q.outer < s.opened.length

theorem step_inside {q : Payload} (hpayload : s.payload = some q) (hnest : nest s.opened p = .ok opened) :
    s.step p = .ok { s.inside q opened p with opened, offset := s.offset + Utf8.length p.source } := by
  rw [step, hnest, hpayload]
  rfl

theorem step_outside (hpayload : s.payload = none) (hnest : nest s.opened p = .ok opened)
    (h : s.outside p = .ok s') :
    s.step p = .ok { s' with opened, offset := s.offset + Utf8.length p.source } := by
  rw [step, hnest, hpayload, h]
  rfl

theorem step_outside_error {f : Markup.Fault} (hpayload : s.payload = none)
    (hnest : nest s.opened p = .ok opened) (h : s.outside p = .error f) :
    s.step p = .error ⟨none, f⟩ := by
  rw [step, hnest, hpayload, h]
  rfl

theorem step_broken (s : Reading) (h : p.isBroken = true) : ∃ f, s.step p = .error f := by
  cases p with
  | broken cs fault => exact ⟨_, rfl⟩
  | _ => cases h

theorem text_ok_iff {cs : List Char} : (∃ s', s.text cs = .ok s') ↔ s.field = none ∨ Legible cs := by
  rw [← legible_strip, ← unescape_ok_iff, text]
  split
  · next h =>
    constructor
    · intro _
      rcases h with h | h
      · exact .inl (Option.isNone_iff_eq_none.1 h)
      · rw [h]
        exact .inr ⟨[], by rw [unescape, unescapeFrom]⟩
    · intro _
      exact ⟨s, rfl⟩
  · next h =>
    rw [not_or] at h
    constructor
    · rintro ⟨s', hs'⟩
      obtain ⟨out, hout, -⟩ := bind_eq_ok.1 hs'
      exact .inr ⟨out, hout⟩
    · rintro (hfield | ⟨out, hout⟩)
      · exact absurd (Option.isNone_iff_eq_none.2 hfield) h.1
      · exact ⟨_, bind_eq_ok.2 ⟨out, hout, rfl⟩⟩

theorem payload_characters (s : Reading) (cs : List Char) : (s.characters cs).payload = s.payload := by
  rw [characters]
  split
  · next f _ => cases f <;> rfl
  · rfl

theorem payload_text {cs : List Char} (h : s.text cs = .ok s') : s'.payload = s.payload := by
  rw [text] at h
  split at h
  · cases h
    rfl
  · obtain ⟨out, -, hout⟩ := bind_eq_ok.1 h
    cases hout
    exact payload_characters s out

theorem payload_header {body : List Char} (h : s.header body = .ok s') : s'.payload = s.payload := by
  obtain ⟨status, -, h⟩ := bind_eq_ok.1 h
  split at h
  · cases h
    rfl
  · cases h
    rfl

theorem payload_error {body : List Char} (h : s.error body = .ok s') : s'.payload = s.payload := by
  obtain ⟨code, -, h⟩ := bind_eq_ok.1 h
  cases h
  rfl

theorem payload_closeTag (s : Reading) (body : List Char) : (s.closeTag body).payload = s.payload := by
  rw [closeTag]
  split <;> rfl

/-- Metadata is opened by a start tag. -/
theorem payload_openTag {body : List Char} (h : s.openTag body = .ok s') :
    s'.payload = s.payload ∨ s'.payload = some ⟨Tag.name body, s.opened.length, []⟩ := by
  rw [openTag] at h
  split at h
  · cases h
    exact .inl rfl
  · split at h
    · have hheader := payload_header h
      exact .inl hheader
    · cases h
      exact .inl rfl
  · split at h
    · cases h
      exact .inr rfl
    · cases h
      exact .inl rfl
  · cases h
    exact .inl rfl
  · obtain ⟨s₁, h₁, h⟩ := bind_eq_ok.1 h
    cases h
    have herror : s₁.payload = s.payload := payload_error h₁
    exact .inl herror
  · cases h
    split
    · exact .inl rfl
    · exact .inl rfl
  · cases h
    exact .inl rfl

theorem payload_outside (h : s.outside p = .ok s') : s'.payload = s.payload ∨
    ∃ body, p = .opening body ∧ s'.payload = some ⟨Tag.name body, s.opened.length, []⟩ := by
  cases p with
  | text cs => exact .inl (payload_text h)
  | characters cs =>
      cases h
      exact .inl (payload_characters s cs)
  | opening body => exact (payload_openTag h).imp_right fun h => ⟨body, rfl, h⟩
  | single body =>
      change s.emptyTag body = .ok s' at h
      rw [emptyTag] at h
      split at h
      · split at h
        · exact .inl (payload_header h)
        · cases h
          exact .inl rfl
      · exact .inl (payload_error h)
      · cases h
        exact .inl rfl
  | closing body =>
      cases h
      exact .inl (payload_closeTag s body)
  | comment _ | instruction _ | doctype _ _ | broken _ _ =>
      cases h
      exact .inl rfl

theorem length_nest {o o' : List (List Char)} (h : nest o p = .ok o') : o.length ≤ o'.length + 1 := by
  rw [nest.eq_def] at h
  split at h
  · cases h
    simp
    omega
  · split at h
    · cases h
    · split at h
      · cases h
        simp
      · cases h
  · cases h
  · cases h
    omega

theorem Nested.step (hs : s.Nested) (h : s.step p = .ok s') : s'.Nested := by
  obtain ⟨opened, hnest, hnext⟩ := bind_eq_ok.1 h
  rw [mapError_eq_ok] at hnest
  intro q hq
  cases hpayload : s.payload with
  | some q₀ =>
      cases (step_inside hpayload hnest).symm.trans h
      rw [inside] at hq
      split at hq
      · cases hq
      · next hlength =>
        cases hq
        -- the element around the metadata was open before, and a piece closes at most one
        have hopened := hs q₀ hpayload
        have hnested := length_nest hnest
        show q₀.outer < opened.length
        omega
  | none =>
      cases houtside : s.outside p with
      | error f => cases (step_outside_error hpayload hnest houtside).symm.trans h
      | ok s₁ =>
          cases (step_outside hpayload hnest houtside).symm.trans h
          rcases payload_outside houtside with h₁ | ⟨body, rfl, h₁⟩
          · cases (h₁.trans hpayload).symm.trans hq
          · cases hnest
            cases h₁.symm.trans hq
            exact Nat.lt_succ_self _

/-! ## Well-formed pieces -/

theorem exists_header {body : List Char} (s : Reading)
    (h : ∀ key, ∃ value, Tag.attribute? key body = .ok value) : ∃ s', s.header body = .ok s' := by
  obtain ⟨value, hvalue⟩ := h deletedStatus.1
  rw [header, hvalue]
  by_cases hdeleted : value = some deletedStatus.2.toList
  · exact ⟨_, if_pos hdeleted⟩
  · exact ⟨_, if_neg hdeleted⟩

theorem exists_error {body : List Char} (s : Reading)
    (h : ∀ key, ∃ value, Tag.attribute? key body = .ok value) : ∃ s', s.error body = .ok s' := by
  obtain ⟨value, hvalue⟩ := h "code"
  rw [error, hvalue]
  exact ⟨_, rfl⟩

theorem exists_outside (s : Reading) (h : p.WellFormed) : ∃ s', s.outside p = .ok s' := by
  cases p with
  | text cs => exact text_ok_iff.2 (.inr h)
  | opening body =>
      show ∃ s', s.openTag body = .ok s'
      rw [openTag]
      split
      · exact ⟨_, rfl⟩
      · split
        · exact exists_header _ h
        · exact ⟨_, rfl⟩
      · split
        · exact ⟨_, rfl⟩
        · exact ⟨_, rfl⟩
      · exact ⟨_, rfl⟩
      · obtain ⟨s₁, h₁⟩ := exists_error s h
        rw [h₁]
        exact ⟨_, rfl⟩
      · exact ⟨_, rfl⟩
      · exact ⟨_, rfl⟩
  | single body =>
      show ∃ s', s.emptyTag body = .ok s'
      rw [emptyTag]
      split
      · split
        · exact exists_header _ h
        · exact ⟨_, rfl⟩
      · exact exists_error s h
      · exact ⟨_, rfl⟩
  | broken _ _ => exact h.elim
  | _ => exact ⟨_, rfl⟩

/-- A well-formed piece that fits can be read. -/
theorem exists_step (s : Reading) (h : p.WellFormed) (hnest : nest s.opened p = .ok opened) :
    ∃ s', s.step p = .ok s' ∧ s'.opened = opened := by
  cases hpayload : s.payload with
  | some q => exact ⟨_, step_inside hpayload hnest, rfl⟩
  | none =>
      obtain ⟨s', hs'⟩ := exists_outside s h
      exact ⟨_, step_outside hpayload hnest hs', rfl⟩

theorem exists_run {ps : List Piece} (s : Reading) (hps : ∀ p ∈ ps, p.WellFormed) (hs : s.Nested)
    (hnest : ps.foldlM nest s.opened = .ok opened) :
    ∃ s', ps.foldlM step s = .ok s' ∧ s'.opened = opened ∧ s'.Nested := by
  induction ps generalizing s with
  | nil =>
      cases hnest
      exact ⟨s, rfl, rfl, hs⟩
  | cons p ps ih =>
      rw [List.foldlM_cons] at hnest
      obtain ⟨o, ho, hnest⟩ := bind_eq_ok.1 hnest
      obtain ⟨s₁, h₁, rfl⟩ := exists_step s (hps p List.mem_cons_self) ho
      obtain ⟨s', hrun, hopened, hnested⟩ :=
        ih s₁ (fun p hp => hps p (List.mem_cons_of_mem _ hp)) (hs.step h₁) hnest
      refine ⟨s', ?_, hopened, hnested⟩
      rw [List.foldlM_cons, h₁]
      exact hrun

theorem nested_start : Nested start := fun _ h => nomatch h

/-- Behind well-formed pieces, at the end of the text. -/
theorem finish_error_iff (s : Reading) : (∃ f, s.finish = .error f) ↔ s.payload.isSome := by
  rw [finish]
  cases s.payload with
  | none =>
      constructor
      · intro h
        obtain ⟨f, hf⟩ := h
        cases hf
      · nofun
  | some q =>
      constructor
      · intro _
        rfl
      · intro _
        exact ⟨_, rfl⟩

/-- Character data that is cut off: inside metadata its end is missing, elsewhere only a value that is
read must be legible. -/
theorem text_error_iff (hs : s.Nested) (cs : List Char) :
    (∃ f, (do (← s.step (.text cs)).finish) = .error f) ↔
      s.payload.isSome ∨ s.field.isSome ∧ ¬ Legible cs := by
  have hnest : nest s.opened (.text cs) = .ok s.opened := rfl
  cases hpayload : s.payload with
  | some q =>
      -- the text belongs to the metadata, which is missing its end all the same
      have hinside : s.inside q s.opened (.text cs) =
          { s with payload := some { q with source := q.source ++ cs } } :=
        if_neg (Nat.ne_of_gt (hs q hpayload))
      constructor
      · intro _
        exact .inl rfl
      · intro _
        refine ⟨⟨none, .endless q.name⟩, ?_⟩
        rw [step_inside hpayload hnest, hinside]
        rfl
  | none =>
      cases htext : s.text cs with
      | error f =>
          have hfield : ¬ (s.field = none ∨ Legible cs) := by
            rw [← text_ok_iff, htext]
            rintro ⟨s', ⟨⟩⟩
          rw [not_or] at hfield
          constructor
          · intro _
            exact .inr ⟨Option.isSome_iff_ne_none.2 hfield.1, hfield.2⟩
          · intro _
            refine ⟨⟨none, f⟩, ?_⟩
            rw [step_outside_error hpayload hnest htext]
            rfl
      | ok s' =>
          have hfield : s.field = none ∨ Legible cs := text_ok_iff.1 ⟨s', htext⟩
          rw [step_outside hpayload hnest htext]
          constructor
          · rintro ⟨f, hf⟩
            have hfinish := (finish_error_iff _).1 ⟨f, hf⟩
            rw [show s'.payload.isSome = s.payload.isSome by rw [payload_text htext], hpayload] at hfinish
            cases hfinish
          · rintro (h | ⟨hsome, hlegible⟩)
            · cases h
            · rcases hfield with hnone | h
              · rw [hnone] at hsome
                cases hsome
              · exact absurd h hlegible

end Reading

/-! ## Whole responses -/

section

variable {body pre : List Char}

/-- A well-formed response can be read. -/
theorem exists_read (h : WellFormed (withoutMark body)) : ∃ e, read body = .ok e := by
  obtain ⟨s, hrun, hopened, hnested⟩ := Reading.exists_run .start h.all Reading.nested_start h.nested
  have hpayload : s.payload = none := by
    -- metadata would be inside an element that is still open
    apply Option.eq_none_iff_forall_ne_some.2
    intro q hq
    have hlength := hnested q hq
    rw [hopened] at hlength
    exact absurd hlength (Nat.not_lt_zero _)
  refine ⟨s.envelope, ?_⟩
  rw [read, hrun]
  show s.finish = _
  rw [Reading.finish, hpayload]

theorem withoutMark_mono (h : pre <+: body) : withoutMark pre <+: withoutMark body := by
  obtain ⟨u, rfl⟩ := h
  rcases pre with _ | ⟨c, pre⟩
  · exact List.nil_prefix
  · by_cases hc : c = '\uFEFF'
    · subst hc
      exact ⟨u, rfl⟩
    · have hmark (r : List Char) : withoutMark (c :: r) = c :: r := by
        rw [withoutMark.eq_def]
        split
        · next heq => exact absurd (List.cons.inj heq).1 hc
        · rfl
      rw [List.cons_append, hmark, hmark]
      exact ⟨u, rfl⟩

/-- The reader refuses what is left of a text if something refuses to be read at its end. -/
theorem refuses_stump {before stump : List Piece} {s : Reading}
    (hpieces : pieces (withoutMark pre) = before ++ stump)
    (hbefore : before.foldlM Reading.step .start = .ok s) :
    read pre = (do (← stump.foldlM Reading.step s).finish) := by
  rw [read, hpieces, List.foldlM_append, hbefore]
  rfl

/-- A cut is noticed inside metadata, inside markup, and inside an entity of a value that is read. -/
theorem read_error_iff (hbody : WellFormed (withoutMark body)) {before after stump : List Piece}
    {part : List Char}
    (hcut : Cut (pieces (withoutMark body)) (withoutMark pre) (pieces (withoutMark pre)) before after part stump) :
    ∃ s, before.foldlM Reading.step .start = .ok s ∧ ((∃ f, read pre = .error f) ↔
      s.payload.isSome ∨ (part ≠ [] ∧ ∀ p ∈ after.head?, p.isText = false) ∨
        s.field.isSome ∧ EndsInEntity part) := by
  have hnested := hbody.nested
  rw [hcut.whole, List.foldlM_append] at hnested
  obtain ⟨opened, hbefore, -⟩ := bind_eq_ok.1 hnested
  obtain ⟨s, hrun, -, hs⟩ := Reading.exists_run .start
    (fun p hp => hbody.all p (hcut.whole ▸ List.mem_append_left after hp)) Reading.nested_start hbefore
  refine ⟨s, hrun, ?_⟩
  rw [refuses_stump hcut.pieces hrun]
  cases hcut.stump with
  | none =>
      have hend : ¬ EndsInEntity [] := by
        rintro ⟨a, b, h, -⟩
        simp at h
      show (∃ f, s.finish = .error f) ↔ _
      rw [Reading.finish_error_iff]
      constructor
      · intro h
        exact .inl h
      · -- between two pieces nothing is cut through
        rintro (h | h | h)
        · exact h
        · exact absurd rfl h.1
        · exact absurd h.2 hend
  | @markup p torn part u after more hmarkup hpart _ _ htorn =>
      obtain ⟨f, hf⟩ := s.step_broken htorn
      constructor
      · intro _
        refine .inr (.inl ⟨hpart, ?_⟩)
        intro _ hp
        cases hp
        exact hmarkup
      · intro _
        refine ⟨f, ?_⟩
        rw [List.foldlM_cons, hf]
        rfl
  | @text cs part u after hpart _ hcs =>
      have hlegible : Legible cs :=
        hbody.all (.text cs) (hcut.whole ▸ List.mem_append_right before List.mem_cons_self)
      have hrunText : ([Piece.text part].foldlM Reading.step s : Except Fault Reading) = s.step (.text part) := by
        rw [List.foldlM_cons]
        cases s.step (.text part) <;> rfl
      rw [hrunText, Reading.text_error_iff hs, hlegible.cut_iff ⟨u, hcs.symm⟩, Classical.not_not]
      apply or_congr_right
      constructor
      · intro h
        exact .inr h
      · rintro (⟨-, htext⟩ | h)
        · cases htext (.text cs) rfl
        · exact h

/--
The response is refused. With a status of the 200s it is a page that tells of a fault, and a cycle of
which this page is the last one fails; it does not leave a checkpoint that says that all is done.
-/
def Refused (body : List Char) : Prop :=
  ∃ f, read body = .error f ∧ ∀ status retryAfter, 200 ≤ status → status < 300 →
    Page.ofBody status retryAfter body = ⟨status, [], none, some ⟨malformedResponse, f.message⟩, retryAfter⟩ ∧
    ∀ s log report q, (Cycle.course s).Leads Recorded Cycle.start [] (.ended, report) log →
      lastExchange? log = some (q, Page.ofBody status retryAfter body) →
        report.failed = true ∧ Unsettled s log

theorem refused_of_error {f : Fault} (h : read body = .error f) : Refused body := by
  refine ⟨f, h, ?_⟩
  intro status retryAfter hlower hupper
  have hpage : Page.ofBody status retryAfter body =
      ⟨status, [], none, some ⟨malformedResponse, f.message⟩, retryAfter⟩ := by
    rw [Page.ofBody, h]
    rfl
  refine ⟨hpage, ?_⟩
  intro s log report q hrun hread
  rw [hpage] at hread
  have hcode : malformedResponse ≠ Outcome.noRecordsMatch := by decide
  have hfailed : Outcome.ofPage ⟨status, [], none, some ⟨malformedResponse, f.message⟩, retryAfter⟩ =
      .failed status (ProtocolError.text ⟨malformedResponse, f.message⟩) := by
    rw [Outcome.ofPage, if_pos ⟨hlower, hupper⟩]
    exact if_neg hcode
  exact Cycle.failed_of_last hrun hread hfailed

/-- A record, with which a response is cut off. -/
def sampleKept : List Char :=
  "<OAI-PMH><ListRecords><record><header><identifier>oai:1</identifier></header></record>".toList

/-- What was to follow. -/
def sampleLost : List Char := "<resumptionToken>more</resumptionToken></ListRecords></OAI-PMH>".toList

theorem wellFormed_sample : WellFormed (withoutMark (sampleKept ++ sampleLost)) := by
  have hplain : ∀ p ∈ pieces (withoutMark (sampleKept ++ sampleLost)), p.isPlain = true := by
    decide +kernel
  constructor
  · intro p hp
    exact wellFormed_of_isPlain (hplain p hp)
  · decide +kernel

/--
What is left of a well-formed response that is cut off is refused exactly if the cut is inside the
metadata of a record, inside a piece of markup, or inside an entity of an identifier, a datestamp, a set,
a token or an error. After any other cut it is taken for a whole response.
-/
theorem refused_iff (hbody : WellFormed (withoutMark body)) (hpre : pre <+: body) :
    ∃ before after part stump s,
      Cut (pieces (withoutMark body)) (withoutMark pre) (pieces (withoutMark pre)) before after part stump ∧
      before.foldlM Reading.step .start = .ok s ∧
      (Refused pre ↔ s.payload.isSome ∨ (part ≠ [] ∧ ∀ p ∈ after.head?, p.isText = false) ∨
        s.field.isSome ∧ EndsInEntity part) := by
  obtain ⟨before, after, part, stump, hcut⟩ :=
    cut_pieces (withoutMark_mono hpre) fun p hp => (hbody.all p hp).not_broken
  obtain ⟨s, hrun, hiff⟩ := read_error_iff hbody hcut
  refine ⟨before, after, part, stump, s, hcut, hrun, ?_⟩
  rw [← hiff]
  constructor
  · intro ⟨f, hf, _⟩
    exact ⟨f, hf⟩
  · intro ⟨_, hf⟩
    exact refused_of_error hf

theorem refused_iff_sample : WellFormed (withoutMark (sampleKept ++ sampleLost)) ∧
    ∃ before after part stump s,
      Cut (pieces (withoutMark (sampleKept ++ sampleLost))) (withoutMark sampleKept)
        (pieces (withoutMark sampleKept)) before after part stump ∧
      before.foldlM Reading.step .start = .ok s ∧
      (Refused sampleKept ↔ s.payload.isSome ∨ (part ≠ [] ∧ ∀ p ∈ after.head?, p.isText = false) ∨
        s.field.isSome ∧ EndsInEntity part) :=
  ⟨wellFormed_sample, refused_iff wellFormed_sample ⟨sampleLost, rfl⟩⟩

/-- Cut off before its token, a response is taken for the last page, and the harvest for complete. -/
theorem taken_for_whole :
    WellFormed (withoutMark (sampleKept ++ sampleLost)) ∧
    (pieces sampleKept).foldlM nest [] = .ok ["ListRecords".toList, "OAI-PMH".toList] ∧
    read (sampleKept ++ sampleLost) = .ok ⟨[⟨"oai:1", none, [], false, none⟩], some "more", none⟩ ∧
    read sampleKept = .ok ⟨[⟨"oai:1", none, [], false, none⟩], none, none⟩ ∧
    ∃ log report q, (Cycle.course Surroundings.sample).Leads Recorded Cycle.start [] (.ended, report) log ∧
      lastExchange? log = some (q, Page.ofBody 200 none sampleKept) ∧ report.failed = false ∧
      stored? "source" log = some ⟨none, none, none, none, 200⟩ := by
  have hpage : Page.ofBody 200 none sampleKept = ⟨200, [⟨"oai:1", none, [], false, none⟩], none, none, none⟩ := by
    decide +kernel
  have hended : (Cycle.recorded (Page.ofBody 200 none sampleKept)).1 =
      (.ended, (Cycle.recorded (Page.ofBody 200 none sampleKept)).1.2) := by
    rw [hpage]
    rfl
  have hrun := Cycle.leads_recorded (Page.ofBody 200 none sampleKept)
  rw [hended] at hrun
  refine ⟨wellFormed_sample, by decide +kernel, by decide +kernel, by decide +kernel, _, _,
    Surroundings.sample.template, hrun, ?_⟩
  exact ⟨by decide +kernel, by decide +kernel, by decide +kernel⟩

end

end Envelope

end Harvesting
