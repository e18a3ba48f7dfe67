import Harvesting.Proofs.Protocol.Place

/-!
# Foreign content in a record

Behind its metadata a record may hold containers of which the content is foreign to the envelope. The
reader does not leave them out: it passes over the tags in them that say nothing between the parts of a
record, and takes the others for tags of the envelope.

* `Tagging`, `Tagging.leaks` — the tags that are taken for tags of the envelope;
* `Reading.carries_foreign` — the others are passed over;
* `Envelope.BetweenParts` — the places between the parts of a record, such as that behind its metadata;
* `Envelope.unread_iff` — a container changes nothing, whatever the response, if no tag in it leaks, and
  for each kind of tag that leaks there is one that changes what is read;
* `Envelope.foreign_is_read` — a token from such a container.
-/

namespace Harvesting

open Markup

namespace Envelope

/-- A tag that opens something: of which element, and whether it closes it too. -/
structure Tagging where
  kind : Element
  empty : Bool
  deriving DecidableEq

def tagging? : Piece → Option Tagging
  | .opening body => some ⟨.ofTag body, false⟩
  | .single body => some ⟨.ofTag body, true⟩
  | _ => none

/-- Between the parts of a record, the tag is taken for one of the envelope. -/
def Tagging.leaks : Tagging → Bool
  | ⟨.record, empty⟩ | ⟨.metadata, empty⟩ | ⟨.field .token, empty⟩ => !empty
  | ⟨.header, _⟩ | ⟨.field .error, _⟩ => true
  | _ => false

/-- All tags in the pieces are passed over, but for those of one kind. -/
def ForeignBut (x : Tagging) (ps : List Piece) : Prop := ∀ p ∈ ps, ∀ y ∈ tagging? p, y = x ∨ y.leaks = false

instance (x : Tagging) : DecidablePred (ForeignBut x) := fun ps =>
  List.decidableBAll (fun p => ∀ y ∈ tagging? p, y = x ∨ y.leaks = false) ps

/-! ## What is passed over -/

namespace Reading

variable {e : Envelope} {record : Option Record} {opened : List (List Char)} {p : Piece} {ps : List Piece}
  {name a b body : List Char}

theorem openTag_foreign (h : Tagging.leaks ⟨.ofTag body, false⟩ = false) (n : Nat) :
    ((calm e record false opened).upTo n).openTag body = .ok ((calm e record false opened).upTo n) := by
  rw [openTag]
  revert h
  cases Element.ofTag body with
  | record | header | metadata =>
      intro h
      cases h
  | other => exact fun _ => rfl
  | field f =>
      cases f with
      | token | error =>
          intro h
          cases h
      | _ => exact fun _ => rfl

theorem emptyTag_foreign (h : Tagging.leaks ⟨.ofTag body, true⟩ = false) (n : Nat) :
    ((calm e record false opened).upTo n).emptyTag body = .ok ((calm e record false opened).upTo n) := by
  rw [emptyTag]
  revert h
  cases Element.ofTag body with
  | header =>
      intro h
      cases h
  | record | metadata | other => exact fun _ => rfl
  | field f =>
      cases f with
      | error =>
          intro h
          cases h
      | _ => exact fun _ => rfl

theorem closeTag_foreign (h : Tagging.leaks ⟨.ofName (Tag.closedName b), false⟩ = false) :
    (calm e record false opened).closeTag b = calm e record false opened := by
  rw [closeTag]
  revert h
  cases Element.ofName (Tag.closedName b) with
  | record | header =>
      intro h
      cases h
  | _ => exact fun _ => rfl

theorem carries_leaf (hp : p.Proper) (htag : p.isTag = false) (h : ∀ y ∈ tagging? p, y.leaks = false) :
    Carries (calm e record false opened) [p] (calm e record false opened) := by
  have houtside (n : Nat) : ((calm e record false opened).upTo n).outside p =
      .ok ((calm e record false opened).upTo n) := by
    cases p with
    | text cs =>
        show ((calm e record false opened).upTo n).text cs = _
        rw [text]
        exact if_pos (.inl rfl)
    | opening _ | closing _ => cases htag
    | single body => exact emptyTag_foreign (h _ rfl) n
    | comment _ | characters _ | instruction _ => rfl
    | doctype _ _ | broken _ _ => exact hp.elim
  exact carries_outside (s := calm e record false opened) rfl (nest_leaf hp htag opened) houtside

/-- Content of which no tag is taken for one of the envelope is passed over, with all that is inside it. -/
theorem carries_foreign (h : IsContent ps) (hps : ∀ p ∈ ps, ∀ y ∈ tagging? p, y.leaks = false) :
    Carries (calm e record false opened) ps (calm e record false opened) := by
  induction h generalizing opened with
  | nil => exact carries_nil _
  | leaf hp htag _ ih =>
      obtain ⟨hfirst, hrest⟩ := List.forall_mem_cons.1 hps
      exact (carries_leaf hp htag hfirst).cons (ih hrest)
  | @element name a b inner ps ha hb _ _ ihinner ih =>
      obtain ⟨hfirst, hmore⟩ := List.forall_mem_cons.1 hps
      obtain ⟨hinner, hmore⟩ := List.forall_mem_append.1 hmore
      have hrest := (List.forall_mem_cons.1 hmore).2
      have htag : Tagging.leaks ⟨.ofTag a, false⟩ = false := hfirst _ rfl
      -- the end tag is one of the same element
      have hend : Tagging.leaks ⟨.ofName (Tag.closedName b), false⟩ = false := by
        rw [hb.closedName_eq, ← ha.name_eq]
        exact htag
      have hopen : Carries (calm e record false opened) [.opening a] (calm e record false (name :: opened)) :=
        carries_opening ha rfl rfl fun n => openTag_foreign htag n
      have hclose := carries_closing (s := calm e record false (name :: opened)) hb rfl rfl
      rw [closeTag_foreign hend] at hclose
      exact hopen.cons ((ihinner hinner).append (hclose.cons (ih hrest)))

/-- A container of foreign content is passed over. -/
theorem part_foreign {attrs content about : List Char} (habout : IsElement "about" attrs content about)
    (hcontent : Balanced content) (htags : ∀ p ∈ pieces content, ∀ y ∈ tagging? p, y.leaks = false) :
    Part (calm e record false opened) about (calm e record false opened) := by
  apply part_other habout (by decide) rfl
  intro name
  obtain ⟨ps, hps, hseparate, rfl⟩ := hcontent.exists_content
  rw [pieces_flatMap_source hps.proper hseparate] at htags
  exact ⟨ps, rfl, hps.proper, hseparate, carries_foreign hps htags⟩

end Reading

/-! ## What is not -/

/-- A response up to the end of the header of a record. -/
def samplePreamble : List Char :=
  "<OAI-PMH><ListRecords><record><header><identifier>oai:1</identifier></header>".toList

/-- The same up to the end of the metadata. -/
def samplePrologue : List Char := samplePreamble ++ "<metadata><dc/></metadata>".toList

def sampleEpilogue : List Char := "</record></ListRecords></OAI-PMH>".toList

/-- The element of one tag, with that much inside it. -/
def element (name attrs inner : String) : List Char :=
  '<' :: (name.toList ++ attrs.toList ++ '>' :: (inner.toList ++ '<' :: '/' :: (name.toList ++ ['>'])))

def container (content : List Char) : List Char :=
  '<' :: ("about".toList ++ '>' :: (content ++ '<' :: '/' :: ("about".toList ++ ['>'])))

theorem isElement_container (content : List Char) : IsElement "about" [] content (container content) := by
  have hname : Labelled "about" "about".toList := ⟨by decide, .inl rfl⟩
  have helement : IsElement "about" [] content _ := .mk hname (.gap isGap_nil) isGap_nil
  simpa [container] using helement

/-- A tag of each kind that is taken for one of the envelope, with its end. -/
def leak : Tagging → List Char
  | ⟨.record, _⟩ => element "record" "" ""
  | ⟨.metadata, _⟩ => element "metadata" "" "x"
  | ⟨.header, false⟩ => element "header" " status=\"deleted\"" ""
  | ⟨.header, true⟩ => "<header status=\"deleted\"/>".toList
  | ⟨.field .error, true⟩ => "<error/>".toList
  | ⟨.field .error, false⟩ => element "error" "" "x"
  | _ => element "resumptionToken" "" "x"

theorem balanced_element {name attrs inner : String} (hname : IsName name.toList) (hattrs : IsAttributes attrs.toList)
    (hinner : '<' ∉ inner.toList) : Balanced (element name attrs inner) :=
  .element ⟨_, hname, hattrs, rfl⟩ ⟨[], hname, isGap_nil, (List.append_nil _).symm⟩ (balanced_text hinner) .nil

theorem balanced_single {name attrs : List Char} (hname : IsName name) (hattrs : IsAttributes attrs) :
    Balanced ((Piece.single (name ++ attrs)).source) := by
  have hleaf : Balanced ((Piece.single (name ++ attrs)).source ++ []) :=
    .leaf ⟨name, attrs, hname, hattrs, rfl⟩ rfl rfl .nil
  rwa [List.append_nil] at hleaf

theorem balanced_leak (x : Tagging) : Balanced (leak x) := by
  have hgap : IsAttributes "".toList := .gap isGap_nil
  have hdeleted : IsAttributes " status=\"deleted\"".toList := isAttributes_header true
  have hnone : '<' ∉ "".toList ∧ '<' ∉ "x".toList := by decide
  rw [leak.eq_def]
  split
  · exact balanced_element (by decide) hgap hnone.1
  · exact balanced_element (by decide) hgap hnone.2
  · exact balanced_element (by decide) hdeleted hnone.1
  · exact balanced_single (by decide : IsName "header".toList) hdeleted
  · exact balanced_single (by decide : IsName "error".toList) hgap
  · exact balanced_element (by decide) hgap hnone.2
  · exact balanced_element (by decide) hgap hnone.2

/-- Each kind of tag that leaks changes a response. -/
theorem outcome_leak {x : Tagging} (h : x.leaks = true) : ForeignBut x (pieces (leak x)) ∧
    outcome (samplePrologue ++ (container (leak x) ++ sampleEpilogue)) ≠ outcome (samplePrologue ++ sampleEpilogue) := by
  obtain ⟨kind, empty⟩ := x
  cases kind with
  | other => cases h
  | record | metadata =>
      cases empty with
      | true => cases h
      | false => decide +kernel
  | header => cases empty <;> decide +kernel
  | field f =>
      cases f with
      | identifier | datestamp | setSpec => cases h
      | token =>
          cases empty with
          | true => cases h
          | false => decide +kernel
      | error => cases empty <;> decide +kernel

/-! ## Containers in a response -/

/-- The text before a place between the parts of a record, behind a tag or a comment. -/
def BetweenParts (pre : List Char) : Prop := EndsInMarkup (pieces (withoutMark pre)) ∧
  ∃ e r opened n, ReadsTo pre ((Reading.calm e (some r) false opened).upTo n)

/-- A container of foreign content that is passed over does not change what is read from a response. -/
theorem outcome_foreign {pre attrs content about : List Char} (hpre : BetweenParts pre)
    (habout : IsElement "about" attrs content about) (hcontent : Balanced content)
    (htags : ∀ p ∈ pieces content, ∀ y ∈ tagging? p, y.leaks = false) (post : List Char) :
    outcome (pre ++ (about ++ post)) = outcome (pre ++ post) := by
  obtain ⟨hends, e, r, opened, n, hreads⟩ := hpre
  rw [outcome_append hreads (.inr hends), outcome_append hreads (.inr hends), Reading.outcome_upTo,
    Reading.outcome_upTo, (Reading.part_foreign habout hcontent htags).outcome_eq]

/-- Behind metadata between the parts of a record there is another such place. -/
theorem BetweenParts.metadata {pre cs : List Char} {metadata : String} (hpre : BetweenParts pre)
    (hmetadata : IsMetadata metadata cs) (hbalanced : Balanced metadata.toList)
    (htrimmed : Text.trimmed metadata = metadata) : BetweenParts (pre ++ cs) := by
  obtain ⟨hends, e, r, opened, n, hreads⟩ := hpre
  obtain ⟨hends, m, hreads⟩ := hreads.part hends (Reading.part_metadata hmetadata hbalanced htrimmed)
  exact ⟨hends, e, _, opened, m, hreads⟩

theorem betweenParts_sample : BetweenParts samplePrologue := by
  have hheaded : BetweenParts samplePreamble := by
    refine ⟨⟨.closing "header".toList, by decide +kernel, rfl⟩, ⟨[], none, none⟩,
      ⟨"oai:1", none, [], false, none⟩, ["record".toList, "ListRecords".toList, "OAI-PMH".toList], 77, ?_⟩
    rw [ReadsTo]
    decide +kernel
  have hname : Labelled "metadata" "metadata".toList := ⟨by decide, .inl rfl⟩
  have helement : IsElement "metadata" [] "<dc/>".toList "<metadata><dc/></metadata>".toList :=
    .mk hname (.gap isGap_nil) isGap_nil
  have hbalanced : Balanced "<dc/>".toList := balanced_single (by decide : IsName "dc".toList) (.gap isGap_nil)
  have hmetadata : IsMetadata "<dc/>" "<metadata><dc/></metadata>".toList :=
    ⟨[], [], [], isGap_nil, isGap_nil, helement⟩
  exact hheaded.metadata hmetadata hbalanced (by decide)

/--
A container between the parts of a record does not change what is read from the response, but for the places
of faults, whatever else is in it, as long as none of its tags leaks. No kind of tag that leaks can be let in:
for each there is a response and a container, with no tags that leak but of this kind, where what is read differs.
-/
theorem unread_iff (x : Tagging) :
    (∀ pre post attrs content about, BetweenParts pre → IsElement "about" attrs content about → Balanced content →
      ForeignBut x (pieces content) → outcome (pre ++ (about ++ post)) = outcome (pre ++ post)) ↔
    x.leaks = false := by
  constructor
  · intro h
    cases hx : x.leaks with
    | false => rfl
    | true =>
        obtain ⟨htags, hne⟩ := outcome_leak hx
        exact absurd (h _ _ _ _ _ betweenParts_sample (isElement_container _) (balanced_leak x) htags) hne
  · intro hx pre post attrs content about hpre habout hcontent htags
    apply outcome_foreign hpre habout hcontent
    intro p hp y hy
    rcases htags p hp y hy with rfl | hfalse
    · exact hx
    · exact hfalse

/-- The end of a list in a container is taken for the token of the response, and a record in it for a record. -/
theorem foreign_is_read :
    BetweenParts samplePrologue ∧
    Balanced (element "resumptionToken" "" "x") ∧ Balanced (element "record" "" "") ∧
    read (samplePrologue ++ sampleEpilogue) = .ok ⟨[⟨"oai:1", none, [], false, some "<dc/>"⟩], none, none⟩ ∧
    read (samplePrologue ++ (container (element "resumptionToken" "" "x") ++ sampleEpilogue)) =
      .ok ⟨[⟨"oai:1", none, [], false, some "<dc/>"⟩], some "x", none⟩ ∧
    read (samplePrologue ++ (container (element "record" "" "") ++ sampleEpilogue)) =
      .ok ⟨[⟨"", none, [], false, none⟩], none, none⟩ := by
  refine ⟨betweenParts_sample, balanced_leak ⟨.field .token, false⟩, balanced_leak ⟨.record, false⟩, ?_⟩
  decide +kernel

end Envelope

end Harvesting
