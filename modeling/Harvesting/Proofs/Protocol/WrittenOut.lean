import Harvesting.Output.Document
import Harvesting.Proofs.Protocol.Probe

/-!
# Empty elements that are written out

An element without content can be written as one tag or as a start tag and an end tag. To the reader these
are not the same: an empty record is not seen, nor is empty metadata, while the end tag of any element ends
a value that is being read, and the end tag of a header the header.

    <name/>  ──emptyTag──▶ a reading      <name></name>  ──writtenOut──▶ a reading

* `Reading.twoTags`, `Reading.writtenOut`, `Reading.twoTags_eq` — the reading behind an element that is
  written out;
* `Reading.Indifferent` — the places where it does not matter how an element is written;
* `Envelope.written_out_iff` — there are no others;
* `Envelope.metadata_written_out` — a record that has a document only if its metadata is written out.
-/

namespace Harvesting

open Markup

namespace Envelope

namespace Reading

variable {s s' : Reading} {name a b : List Char}

/-! ## An empty element -/

theorem outcome_single (hpayload : s.payload = none) (ps : List Piece) :
    s.outcome (.single a :: ps) = (s.emptyTag a).bind (·.outcome ps) := by
  have hnest : nest s.opened (.single a) = .ok s.opened := rfl
  rw [outcome_outside hpayload hnest]
  show (s.emptyTag a).bind _ = _
  cases h : s.emptyTag a with
  | error f => rfl
  | ok s' =>
      obtain ⟨-, -, -, -, hopened⟩ := emptyTag_frame h
      show (s'.amid s.opened).outcome ps = s'.outcome ps
      rw [← hopened]
      rfl

/-! ## An element that is written out -/

/-- The reading behind a start tag and an end tag, with nothing between them. -/
def twoTags (s : Reading) (a b : List Char) : Except Markup.Fault Reading := do
  let t ← s.openTag a
  return (← (t.amid (Tag.name a :: s.opened)).taken s.opened (.closing b)).amid s.opened

theorem outcome_twoTags (ha : IsTag name a) (hb : IsEndTag name b) (hpayload : s.payload = none) (ps : List Piece) :
    s.outcome (.opening a :: .closing b :: ps) = (s.twoTags a b).bind (·.outcome ps) := by
  rw [outcome_outside hpayload (ha.nest_eq s.opened), twoTags, ha.name_eq]
  show (s.openTag a).bind _ = _
  cases s.openTag a with
  | error f => rfl
  | ok t =>
      show (t.amid (name :: s.opened)).outcome (.closing b :: ps) = _
      rw [outcome_cons, step_cause]
      show ((nest (name :: s.opened) (.closing b)).bind _ >>= _) = _
      rw [hb.nest_eq]
      show (((t.amid (name :: s.opened)).taken s.opened (.closing b)).map _ >>= _) =
        (((t.amid (name :: s.opened)).taken s.opened (.closing b)) >>= _).bind _
      cases (t.amid (name :: s.opened)).taken s.opened (.closing b) with
      | error f => rfl
      | ok s' => exact outcome_upTo (s'.amid s.opened) _ ps

theorem twoTags_of_openTag {t : Reading} (hopen : s.openTag a = .ok t) (ht : t.payload = none) :
    s.twoTags a b = .ok ((t.ended (Element.ofName (Tag.closedName b))).amid s.opened) := by
  have hpayload : (t.amid (Tag.name a :: s.opened)).payload = none := ht
  rw [twoTags, hopen]
  show ((t.amid (Tag.name a :: s.opened)).taken s.opened (.closing b) >>= _) = _
  rw [taken_outside hpayload]
  show Except.ok ((closeTag (t.amid (Tag.name a :: s.opened)) b).amid s.opened) = _
  rw [closeTag_eq]
  cases Element.ofName (Tag.closedName b) <;> rfl

/-- An element without content that is written out. -/
def writtenOut (s : Reading) (a : List Char) : Except Markup.Fault Reading :=
  let ended : Reading := { s with field := none }
  match Element.ofTag a with
  | .record => .ok { ended with
      envelope := { s.envelope with records := s.envelope.records ++ [.empty] }
      record := none }
  | .header =>
    let ended : Reading := { ended with inHeader := false }
    if s.record.isSome then ended.header a else .ok ended
  | .metadata =>
    match s.record with
    | some r => .ok { s with record := some (withMetadata r "") }
    | none => .ok ended
  | .field .error => ended.error a
  | _ => .ok ended

theorem twoTags_of_error {e : Markup.Fault} (hopen : s.openTag a = .error e) : s.twoTags a b = .error e := by
  rw [twoTags, hopen]
  rfl

section

variable (hname : Element.ofName (Tag.closedName b) = Element.ofTag a) (hpayload : s.payload = none)

include hname hpayload

theorem twoTags_header (hkind : Element.ofTag a = .header) : s.twoTags a b = s.writtenOut a := by
  obtain ⟨envelope, record, inHeader, field, payload, opened, offset⟩ := s
  rw [writtenOut, hkind]
  cases record with
  | none =>
      have hopen : openTag ⟨envelope, none, inHeader, field, payload, opened, offset⟩ a =
          .ok ⟨envelope, none, inHeader, field, payload, opened, offset⟩ := by
        rw [openTag, hkind]
        rfl
      rw [twoTags_of_openTag hopen hpayload, hname, hkind]
      rfl
  | some r =>
      have hopen : openTag ⟨envelope, some r, inHeader, field, payload, opened, offset⟩ a =
          header ⟨envelope, some r, true, field, payload, opened, offset⟩ a := by
        rw [openTag, hkind]
        rfl
      show _ = header ⟨envelope, some r, false, none, payload, opened, offset⟩ a
      rw [header_eq] at hopen ⊢
      cases hstatus : Tag.attribute? deletedStatus.1 a with
      | error f =>
          rw [hstatus] at hopen
          exact twoTags_of_error hopen
      | ok status =>
          rw [hstatus] at hopen
          simp only [Except.map] at hopen ⊢
          split at hopen
          · next hdeleted =>
            rw [twoTags_of_openTag hopen hpayload, hname, hkind, if_pos hdeleted]
            rfl
          · next hdeleted =>
            rw [twoTags_of_openTag hopen hpayload, hname, hkind, if_neg hdeleted]
            rfl

/-- The end tag of the metadata of a record ends it, and nothing else. -/
theorem twoTags_metadata (hkind : Element.ofTag a = .metadata) : s.twoTags a b = s.writtenOut a := by
  obtain ⟨envelope, record, inHeader, field, payload, opened, offset⟩ := s
  rw [writtenOut, hkind]
  cases record with
  | none =>
      have hopen : openTag ⟨envelope, none, inHeader, field, payload, opened, offset⟩ a =
          .ok ⟨envelope, none, inHeader, field, payload, opened, offset⟩ := by
        rw [openTag, hkind]
        rfl
      rw [twoTags_of_openTag hopen hpayload, hname, hkind]
      rfl
  | some r =>
      have hopen : openTag ⟨envelope, some r, inHeader, field, payload, opened, offset⟩ a =
          .ok ⟨envelope, some r, inHeader, field, some ⟨Tag.name a, opened.length, []⟩, opened, offset⟩ := by
        rw [openTag, hkind]
        rfl
      rw [twoTags, hopen]
      show Except.ok (amid (if opened.length = opened.length then _ else _) opened) = _
      rw [if_pos rfl]
      cases hpayload
      rfl

theorem twoTags_error (hkind : Element.ofTag a = .field .error) : s.twoTags a b = s.writtenOut a := by
  have hopen : s.openTag a = (s.error a).map ({ · with field := some .error }) := by
    rw [openTag, hkind]
    cases s.error a <;> rfl
  rw [writtenOut, hkind]
  show _ = ({ s with field := none } : Reading).error a
  rw [error_eq] at hopen ⊢
  cases hcode : Tag.attribute? "code" a with
  | error f =>
      rw [hcode] at hopen
      exact twoTags_of_error hopen
  | ok code =>
      rw [hcode] at hopen
      rw [twoTags_of_openTag hopen hpayload, hname, hkind]
      rfl

theorem twoTags_eq : s.twoTags a b = s.writtenOut a := by
  cases hkind : Element.ofTag a with
  | header => exact twoTags_header hname hpayload hkind
  | metadata => exact twoTags_metadata hname hpayload hkind
  | record =>
      have hopen : s.openTag a = .ok { s with record := some .empty } := by rw [openTag, hkind]
      rw [twoTags_of_openTag hopen hpayload, hname, writtenOut, hkind]
      rfl
  | other =>
      have hopen : s.openTag a = .ok s := by rw [openTag, hkind]
      rw [twoTags_of_openTag hopen hpayload, hname, writtenOut, hkind]
      rfl
  | field f =>
      cases f with
      | error => exact twoTags_error hname hpayload hkind
      | token =>
          have hopen : s.openTag a = .ok { s with field := some .token } := by rw [openTag, hkind]
          rw [twoTags_of_openTag hopen hpayload, hname, writtenOut, hkind]
          rfl
      | identifier | datestamp | setSpec =>
          have hopen : ∃ g, s.openTag a = .ok { s with field := g } := by
            rw [openTag, hkind]
            by_cases hheader : s.inHeader = true
            · exact ⟨some _, congrArg Except.ok (if_pos hheader)⟩
            · exact ⟨s.field, congrArg Except.ok (if_neg hheader)⟩
          obtain ⟨g, hopen⟩ := hopen
          rw [twoTags_of_openTag hopen hpayload, hname, writtenOut, hkind]
          rfl

end

/-- Both ways the tag is refused, with the same fault, or accepted. -/
theorem fault_writtenOut (s : Reading) (a : List Char) :
    (s.writtenOut a).map (fun _ => ()) = (s.emptyTag a).map fun _ => () := by
  obtain ⟨envelope, record, inHeader, field, payload, opened, offset⟩ := s
  rw [writtenOut, emptyTag]
  cases Element.ofTag a with
  | record | other => rfl
  | metadata => cases record <;> rfl
  | header =>
      cases record with
      | none => rfl
      | some r =>
          show (header _ a).map _ = (header _ a).map _
          rw [header_eq, header_eq]
          cases Tag.attribute? deletedStatus.1 a <;> rfl
  | field f =>
      cases f with
      | error =>
          show (error _ a).map _ = (error _ a).map _
          rw [error_eq, error_eq]
          cases Tag.attribute? "code" a <;> rfl
      | _ => rfl

theorem writtenOut_of_error {e : Markup.Fault} (h : s.emptyTag a = .error e) : s.writtenOut a = .error e := by
  have hfault := fault_writtenOut s a
  rw [h] at hfault
  cases hwritten : s.writtenOut a with
  | error f =>
      rw [hwritten] at hfault
      exact congrArg Except.error (Except.error.inj hfault)
  | ok t =>
      rw [hwritten] at hfault
      cases hfault

theorem exists_writtenOut (h : s.emptyTag a = .ok s') : ∃ t, s.writtenOut a = .ok t := by
  have hfault := fault_writtenOut s a
  rw [h] at hfault
  obtain ⟨t, hwritten, -⟩ := map_eq_ok.1 hfault
  exact ⟨t, hwritten⟩

/-! ## Where it does not matter -/

/-- An element of the kind does the same at this place, however it is written. -/
def Indifferent (s : Reading) : Element → Prop
  | .record => False
  | .header => s.field = none ∧ s.inHeader = false
  | .metadata => (∀ r, s.record = some r → r.metadata = some "") ∧ (s.record = none → s.field = none)
  | _ => s.field = none

theorem writtenOut_of_indifferent (h : s.Indifferent (Element.ofTag a)) : s.writtenOut a = s.emptyTag a := by
  obtain ⟨envelope, record, inHeader, field, payload, opened, offset⟩ := s
  rw [writtenOut, emptyTag]
  cases hkind : Element.ofTag a with
  | record =>
      rw [hkind] at h
      exact h.elim
  | other =>
      rw [hkind] at h
      cases (h : field = none)
      rfl
  | header =>
      rw [hkind] at h
      obtain ⟨hfield, hheader⟩ : field = none ∧ inHeader = false := h
      subst hfield hheader
      rfl
  | metadata =>
      rw [hkind] at h
      obtain ⟨hmetadata, hfield⟩ := h
      cases record with
      | none =>
          cases (hfield rfl : field = none)
          rfl
      | some r =>
          have hr := hmetadata r rfl
          obtain ⟨identifier, datestamp, sets, deleted, metadata⟩ := r
          cases (hr : metadata = some "")
          rfl
  | field f =>
      rw [hkind] at h
      cases f <;> cases (h : field = none) <;> rfl

/-! ## Where it does -/

/-- An element that is written out ends a value, and a header another one. -/
theorem writtenOut_ends (hmetadata : Element.ofTag a = .metadata → s.record = none) (h : s.writtenOut a = .ok s') :
    s'.field = none ∧ s'.payload = s.payload ∧ (Element.ofTag a = .header → s'.inHeader = false) := by
  rw [writtenOut] at h
  cases hkind : Element.ofTag a with
  | record | other =>
      rw [hkind] at h
      cases h
      exact ⟨rfl, rfl, nofun⟩
  | metadata =>
      rw [hkind, hmetadata hkind] at h
      cases h
      exact ⟨rfl, rfl, nofun⟩
  | header =>
      rw [hkind] at h
      change (if s.record.isSome then _ else _) = _ at h
      split at h
      · obtain ⟨record, -, rfl⟩ := header_frame h
        exact ⟨rfl, rfl, fun _ => rfl⟩
      · cases h
        exact ⟨rfl, rfl, fun _ => rfl⟩
  | field f =>
      rw [hkind] at h
      cases f with
      | error =>
          obtain ⟨e, rfl⟩ := error_frame h
          exact ⟨rfl, rfl, nofun⟩
      | _ =>
          cases h
          exact ⟨rfl, rfl, nofun⟩

/-- Where both ways are read the same whatever follows, the place is one where it does not matter. -/
theorem Sound.indifferent (hs : s.Sound) (hpayload : s.payload = none) (hnames : ∀ name ∈ s.opened, IsName name)
    {t : Reading} (hempty : s.emptyTag a = .ok s') (hwritten : s.writtenOut a = .ok t) (h : Alike s' t) :
    s.Indifferent (Element.ofTag a) := by
  obtain ⟨-, hheader, hfield, hpayload', -⟩ := emptyTag_frame hempty
  have hvoiced : s'.Voiced := hs.voiced.emptyTag hempty
  have hended (hmetadata : Element.ofTag a = .metadata → s.record = none) :
      s.field = none ∧ (Element.ofTag a = .header → s.inHeader = false) := by
    obtain ⟨hfield', hpayload'', hheader'⟩ := writtenOut_ends hmetadata hwritten
    have hnone : s'.field = none :=
      h.field_eq_none (hpayload'.trans hpayload) (hpayload''.trans hpayload) hvoiced hfield'
    refine ⟨hfield.symm.trans hnone, ?_⟩
    intro hkind
    rw [← hheader, h.inHeader_eq (hpayload'.trans hpayload) (hpayload''.trans hpayload) hnone hfield']
    exact hheader' hkind
  cases hkind : Element.ofTag a with
  | record =>
      rw [emptyTag, hkind] at hempty
      rw [writtenOut, hkind] at hwritten
      cases hempty
      cases hwritten
      have hrecords := congrArg Envelope.records (h.envelope_eq hpayload hpayload)
      exact absurd hrecords (by simp)
  | other => exact (hended (by simp [hkind])).1
  | field f => cases f <;> exact (hended (by simp [hkind])).1
  | header =>
      obtain ⟨hnone, hclosed⟩ := hended (by simp [hkind])
      exact ⟨hnone, hclosed hkind⟩
  | metadata =>
      refine ⟨?_, fun hrecord => (hended fun _ => hrecord).1⟩
      intro r hr
      rw [emptyTag, hkind] at hempty
      rw [writtenOut, hkind, hr] at hwritten
      cases hempty
      cases hwritten
      obtain ⟨inner, name, outer, hopened, hname, -⟩ := hs.housed (by rw [hr]; rfl)
      have hmem : name ∈ s.opened := by simp [hopened]
      have hpushed := h.pushed_eq hpayload hpayload rfl hnames ⟨name, hmem, hname⟩
      have hrecords := List.append_cancel_left (congrArg Envelope.records hpushed)
      rw [hr] at hrecords
      exact congrArg Record.metadata (List.cons.inj hrecords).1

end Reading

/-! ## Responses -/

section

variable {pre name a b : List Char} {s : Reading}

theorem outcome_empty (hreads : ReadsTo pre s) (ha : IsTag name a) (hpayload : s.payload = none) (post : List Char) :
    outcome (pre ++ ((Piece.single a).source ++ post)) = (s.emptyTag a).bind (·.outcome (pieces post)) := by
  have hproper : (Piece.single a).Proper := ⟨name, ha⟩
  rw [outcome_append hreads (.inl (hproper.starts rfl post)), pieces_markup hproper rfl,
    Reading.outcome_single hpayload]

theorem outcome_written (hreads : ReadsTo pre s) (ha : IsTag name a) (hb : IsEndTag name b)
    (hpayload : s.payload = none) (post : List Char) :
    outcome (pre ++ ((Piece.opening a).source ++ ((Piece.closing b).source ++ post))) =
      (s.writtenOut a).bind (·.outcome (pieces post)) := by
  have hopening : (Piece.opening a).Proper := ⟨name, ha⟩
  have hclosing : (Piece.closing b).Proper := ⟨name, hb⟩
  have hname : Element.ofName (Tag.closedName b) = Element.ofTag a := by
    rw [hb.closedName_eq, Element.ofTag, ha.name_eq]
  rw [outcome_append hreads (.inl (hopening.starts rfl _)), pieces_markup hopening rfl, pieces_markup hclosing rfl,
    Reading.outcome_twoTags ha hb hpayload, Reading.twoTags_eq hname hpayload]

/--
An element without content can be written as one tag or as two, whatever follows it, exactly at the places
where the reader is indifferent to it or refuses its attributes. A record is never the same written out. Any
other element is only where no value is being read; a header only outside a header; and the metadata of a
record only if it is known already to be empty.
-/
theorem written_out_iff (hreads : ReadsTo pre s) (hpayload : s.payload = none)
    (hnames : ∀ name ∈ s.opened, IsName name) (ha : IsTag name a) (hb : IsEndTag name b) :
    (∀ post, outcome (pre ++ ((Piece.single a).source ++ post)) =
      outcome (pre ++ ((Piece.opening a).source ++ ((Piece.closing b).source ++ post)))) ↔
    s.Indifferent (Element.ofTag a) ∨ ∃ f, s.emptyTag a = .error f := by
  have hsound : s.Sound := Reading.sound_start.run hreads
  simp only [outcome_empty hreads ha hpayload, outcome_written hreads ha hb hpayload]
  constructor
  · intro h
    cases hempty : s.emptyTag a with
    | error f => exact .inr ⟨f, rfl⟩
    | ok s' =>
        obtain ⟨t, hwritten⟩ := Reading.exists_writtenOut hempty
        rw [hempty, hwritten] at h
        exact .inl (hsound.indifferent hpayload hnames hempty hwritten h)
  · rintro (hindifferent | ⟨f, hf⟩) post
    · rw [Reading.writtenOut_of_indifferent hindifferent]
    · rw [hf, Reading.writtenOut_of_error hf]

end

/-- A response up to the end of the header of a record. -/
def sampleHeaded : List Char :=
  "<OAI-PMH><ListRecords><record><header><identifier>oai:1</identifier></header>".toList

def sampleRest : List Char := "</record></ListRecords></OAI-PMH>".toList

def headedRecord : Record := ⟨"oai:1", none, [], false, none⟩

/-- The reading behind the header. -/
def headedReading : Reading :=
  ⟨⟨[], none, none⟩, some headedRecord, false, none, none,
    ["record".toList, "ListRecords".toList, "OAI-PMH".toList], 77⟩

theorem written_out_iff_metadata :
    ReadsTo sampleHeaded headedReading ∧ headedReading.payload = none ∧
    (∀ name ∈ headedReading.opened, IsName name) ∧ IsTag "metadata".toList "metadata".toList ∧
    IsEndTag "metadata".toList "metadata".toList ∧
    ((∀ post, outcome (sampleHeaded ++ ((Piece.single "metadata".toList).source ++ post)) =
      outcome (sampleHeaded ++ ((Piece.opening "metadata".toList).source ++
        ((Piece.closing "metadata".toList).source ++ post)))) ↔
      headedReading.Indifferent (Element.ofTag "metadata".toList) ∨
        ∃ f, headedReading.emptyTag "metadata".toList = .error f) := by
  have hreads : ReadsTo sampleHeaded headedReading := by
    rw [ReadsTo]
    decide +kernel
  have hnames : ∀ name ∈ headedReading.opened, IsName name := by decide
  have htag : IsTag "metadata".toList "metadata".toList := ⟨[], by decide, .gap isGap_nil, rfl⟩
  have hend : IsEndTag "metadata".toList "metadata".toList := ⟨[], by decide, isGap_nil, rfl⟩
  exact ⟨hreads, rfl, hnames, htag, hend, written_out_iff hreads rfl hnames htag hend⟩

def sampleTransformer : Transformer := ⟨"records", none⟩

/--
The record has a document if its empty metadata is written out, and none if it is not; an empty record is
seen only if it is written out.
-/
theorem metadata_written_out :
    read (sampleHeaded ++ ("<metadata/>".toList ++ sampleRest)) = .ok ⟨[headedRecord], none, none⟩ ∧
    read (sampleHeaded ++ ("<metadata></metadata>".toList ++ sampleRest)) =
      .ok ⟨[{ headedRecord with metadata := some "" }], none, none⟩ ∧
    sampleTransformer.documents headedRecord = .error ⟨"oai:1", "record has no metadata"⟩ ∧
    (∃ d, sampleTransformer.documents { headedRecord with metadata := some "" } = .ok [d]) ∧
    read "<ListRecords><record/></ListRecords>".toList = .ok ⟨[], none, none⟩ ∧
    read "<ListRecords><record></record></ListRecords>".toList = .ok ⟨[.empty], none, none⟩ := by
  have hidentifier : Text.trim headedRecord.identifier.toList ≠ [] := by decide
  refine ⟨by decide +kernel, by decide +kernel, ?_, ?_, by decide +kernel, by decide +kernel⟩
  · rw [Transformer.documents, if_neg hidentifier]
    rfl
  · rw [Transformer.documents, if_neg hidentifier]
    exact ⟨_, rfl⟩

end Envelope

end Harvesting
