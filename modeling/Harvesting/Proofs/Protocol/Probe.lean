import Harvesting.Proofs.Protocol.Place

/-!
# Texts that tell readings apart

Two readings from which the same is read, whatever follows, agree in what is known so far: in the envelope,
in whether a value or a header is being read, and in the record, if its element is closed some time. Of
anything else there is a text that tells them apart.

* `Reading.probe`, `Reading.headlessProbe` — records that show a value that is still being read, and a header;
* `Reading.outcome_probe`, `Reading.outcome_headlessProbe`, `Reading.outcome_closings` — what is read from
  them, and from the end tags of all elements;
* `Reading.Alike` — nothing tells the readings apart; `Reading.Alike.field_eq_none` and so on.
-/

namespace Harvesting

open Markup

namespace Envelope

namespace Reading

variable {s s₁ s₂ : Reading} {outer : List (List Char)}

/-! ## What is read from them -/

/-- The envelope with the record that is being read. -/
def pushed (s : Reading) : Envelope := { s.envelope with records := s.envelope.records ++ s.record.toList }

/-- A record that holds a text. -/
def probe (z : Char) : List Piece := [.opening "record".toList, .text [z], .closing "record".toList]

/-- A record that holds an identifier, without a header. -/
def headlessProbe : List Piece :=
  [.opening "record".toList, .opening "identifier".toList, .text ['a'], .closing "identifier".toList,
    .closing "record".toList]

theorem outcome_last (hpayload : s.payload = none)
    (hopened : s.opened = "record".toList :: outer) : s.outcome [.closing "record".toList] = .ok s.pushed := by
  have hnest : nest s.opened (.closing "record".toList) = .ok outer := by
    rw [hopened]
    rfl
  rw [outcome_outside hpayload hnest]
  show ((s.closeTag "record".toList).amid outer).outcome [] = _
  rw [closeTag_eq, outcome_nil]
  · rfl
  · exact hpayload

/-- The reading behind the start tag of a record. -/
def inRecord (s : Reading) : Reading := { s with record := some .empty, opened := "record".toList :: s.opened }

theorem outcome_inRecord (hpayload : s.payload = none) (ps : List Piece) :
    s.outcome (.opening "record".toList :: ps) = s.inRecord.outcome ps := by
  have hkind : Element.ofTag "record".toList = .record := by decide +kernel
  have hnest : nest s.opened (.opening "record".toList) = .ok ("record".toList :: s.opened) := rfl
  have hopen : s.openTag "record".toList = .ok { s with record := some .empty } := by rw [openTag, hkind]
  rw [outcome_outside hpayload hnest]
  show (s.openTag "record".toList).bind _ = _
  rw [hopen]
  rfl

/-- The reading behind a letter. -/
def told (s : Reading) (z : Char) : Reading :=
  match s.field with
  | some f => s.assign f (String.ofList [z])
  | none => s

theorem told_frame (s : Reading) (z : Char) :
    (s.told z).payload = s.payload ∧ (s.told z).opened = s.opened := by
  rw [told]
  split
  · next f _ => cases f <;> exact ⟨rfl, rfl⟩
  · exact ⟨rfl, rfl⟩

/-- A letter is a value as it is. -/
theorem outcome_letter {z : Char} (hz : z = 'a' ∨ z = 'b') (hpayload : s.payload = none) (ps : List Piece) :
    s.outcome (.text [z] :: ps) = (s.told z).outcome ps := by
  have hread : strip [z] = [z] ∧ unescape [z] = .ok [z] ∧ Text.trim [z] = [z] := by
    rcases hz with rfl | rfl <;> decide +kernel
  obtain ⟨hstrip, hunescape, htrim⟩ := hread
  have htext : s.text [z] = .ok (s.told z) := by
    rw [text, hstrip, hunescape, told]
    cases hfield : s.field with
    | none => rfl
    | some f =>
        show Except.ok (s.characters [z]) = _
        rw [characters, hfield, htrim]
  have hnest : nest s.opened (.text [z]) = .ok s.opened := rfl
  rw [outcome_outside hpayload hnest]
  show (s.text [z]).bind _ = _
  rw [htext, ← (told_frame s z).2]
  rfl

/-- What is read from a probe: a record with the value of the field that is open, or one without. -/
theorem outcome_probe (hpayload : s.payload = none) {z : Char} (hz : z = 'a' ∨ z = 'b') :
    s.outcome (probe z) = .ok (s.inRecord.told z).pushed := by
  obtain ⟨hsame, hopened⟩ := told_frame s.inRecord z
  have hrecord : s.inRecord.payload = none := hpayload
  rw [probe, outcome_inRecord hpayload, outcome_letter hz hrecord, outcome_last (hsame.trans hrecord) hopened]

/-- The reading behind the start tag of an identifier. -/
def inIdentifier (s : Reading) : Reading :=
  { s with field := if s.inHeader then some .identifier else s.field, opened := "identifier".toList :: s.opened }

theorem outcome_inIdentifier (hpayload : s.payload = none) (ps : List Piece) :
    s.outcome (.opening "identifier".toList :: ps) = s.inIdentifier.outcome ps := by
  have hkind : Element.ofTag "identifier".toList = .field .identifier := by decide +kernel
  have hnest : nest s.opened (.opening "identifier".toList) = .ok ("identifier".toList :: s.opened) := rfl
  rw [outcome_outside hpayload hnest]
  show (s.openTag "identifier".toList).bind _ = _
  rw [openTag, hkind]
  show (Reading.amid (if s.inHeader then _ else _) _).outcome ps = _
  rw [inIdentifier]
  split <;> rfl

/-- What is read from an identifier outside a header: nothing, unless the header is taken to go on. -/
theorem outcome_headlessProbe (hpayload : s.payload = none) (hfield : s.field = none) :
    s.outcome headlessProbe = .ok { s.envelope with records := s.envelope.records ++
      [if s.inHeader then { Record.empty with identifier := "a" } else .empty] } := by
  have hrecord : s.inRecord.payload = none := hpayload
  have hidentifier : s.inRecord.inIdentifier.payload = none := hpayload
  obtain ⟨hsame, hopened⟩ := told_frame s.inRecord.inIdentifier 'a'
  have hnest : nest (s.inRecord.inIdentifier.told 'a').opened (.closing "identifier".toList) =
      .ok s.inRecord.opened := by
    rw [hopened]
    rfl
  have hlast : ((s.inRecord.inIdentifier.told 'a').ended (.field .identifier)).payload = none :=
    hsame.trans hidentifier
  rw [headlessProbe, outcome_inRecord hpayload, outcome_inIdentifier hrecord, outcome_letter (.inl rfl) hidentifier,
    outcome_outside (hsame.trans hidentifier) hnest]
  show (((s.inRecord.inIdentifier.told 'a').closeTag "identifier".toList).amid s.inRecord.opened).outcome _ = _
  rw [closeTag_eq]
  calc (((s.inRecord.inIdentifier.told 'a').ended (.field .identifier)).amid s.inRecord.opened).outcome _
      = .ok (s.inRecord.inIdentifier.told 'a').pushed := outcome_last hlast rfl
    _ = _ := by
        cases hheader : s.inHeader <;> simp [told, inIdentifier, inRecord, pushed, assign, hheader, hfield]

/-- At the end of the text all elements are closed, and with its element the record. -/
theorem outcome_closings {opened : List (List Char)} (hopened : s.opened = opened) (hpayload : s.payload = none)
    (hnames : ∀ name ∈ opened, IsName name)
    (hhoused : s.record = none ∨ ∃ name ∈ opened, Element.ofName name = .record) :
    s.outcome (opened.map Piece.closing) = .ok s.pushed := by
  have hpushed {s : Reading} (hnone : s.record = none) : s.pushed = s.envelope := by
    rw [pushed, hnone, Option.toList_none, List.append_nil]
  induction opened generalizing s with
  | nil =>
      rcases hhoused with hnone | ⟨_, hmem, -⟩
      · rw [hpushed hnone]
        exact outcome_nil hpayload
      · cases hmem
  | cons name outer ih =>
      obtain ⟨hname, hnames⟩ := List.forall_mem_cons.1 hnames
      have hend : IsEndTag name name := ⟨[], hname, isGap_nil, (List.append_nil name).symm⟩
      have hnest : nest s.opened (.closing name) = .ok outer := by rw [hopened, hend.nest_eq]
      rw [List.map_cons, outcome_outside hpayload hnest]
      show ((s.closeTag name).amid outer).outcome _ = _
      rw [closeTag_eq, hend.closedName_eq]
      cases hkind : Element.ofName name with
      | record =>
          have hdone : ((s.ended .record).amid outer).outcome (outer.map Piece.closing) = .ok _ :=
            ih rfl hpayload hnames (.inl rfl)
          rw [hdone, hpushed rfl]
          rfl
      | _ =>
          have hrest : s.record = none ∨ ∃ name ∈ outer, Element.ofName name = .record := by
            rcases hhoused with hnone | ⟨x, hx, hxkind⟩
            · exact .inl hnone
            · rcases List.mem_cons.1 hx with rfl | hx
              · cases hkind.symm.trans hxkind
              · exact .inr ⟨x, hx, hxkind⟩
          have hdone := ih (s := (s.ended (Element.ofName name)).amid outer) rfl
          rw [hkind] at hdone
          exact hdone hpayload hnames hrest

/-! ## Readings that no text tells apart -/

/-- Whatever follows, the same is read from it. -/
def Alike (s₁ s₂ : Reading) : Prop := ∀ post, s₁.outcome (pieces post) = s₂.outcome (pieces post)

theorem pieces_probe {z : Char} (hz : z = 'a' ∨ z = 'b') : pieces ((probe z).flatMap Piece.source) = probe z := by
  rcases hz with rfl | rfl <;> decide +kernel

theorem pieces_headlessProbe : pieces (headlessProbe.flatMap Piece.source) = headlessProbe := by decide +kernel

theorem pieces_closings {opened : List (List Char)} (hnames : ∀ name ∈ opened, IsName name) :
    pieces ((opened.map Piece.closing).flatMap Piece.source) = opened.map Piece.closing := by
  apply pieces_flatMap_source
  · intro p hp
    obtain ⟨name, hname, rfl⟩ := List.mem_map.1 hp
    exact ⟨name, [], hnames name hname, isGap_nil, (List.append_nil name).symm⟩
  · induction opened with
    | nil => exact separate_nil
    | cons name outer ih =>
        exact separate_nil.around rfl (ih fun name hname => hnames name (List.mem_cons_of_mem _ hname))

section

variable (h : Alike s₁ s₂) (h₁ : s₁.payload = none) (h₂ : s₂.payload = none)

include h h₁ h₂

theorem Alike.envelope_eq : s₁.envelope = s₂.envelope := by
  have hnil := h []
  rw [pieces, outcome_nil h₁, outcome_nil h₂] at hnil
  exact Except.ok.inj hnil

/-- A value that is being read would be told by what follows. -/
theorem Alike.field_eq_none (hvoiced : s₁.Voiced) (hfield : s₂.field = none) : s₁.field = none := by
  cases hopen : s₁.field with
  | none => rfl
  | some f =>
      have htold₁ (z : Char) : s₁.inRecord.told z = s₁.inRecord.assign f (String.ofList [z]) := by
        have hsame : s₁.inRecord.field = some f := hopen
        rw [told, hsame]
      have htold₂ (z : Char) : s₂.inRecord.told z = s₂.inRecord := by
        have hsame : s₂.inRecord.field = none := hfield
        rw [told, hsame]
      have hread {z : Char} (hz : z = 'a' ∨ z = 'b') :
          (s₁.inRecord.assign f (String.ofList [z])).pushed = s₂.inRecord.pushed := by
        have hsame := h ((probe z).flatMap Piece.source)
        rw [pieces_probe hz, outcome_probe h₁ hz, outcome_probe h₂ hz, htold₁, htold₂] at hsame
        exact Except.ok.inj hsame
      -- no value can be both letters
      have hboth := (hread (.inl rfl)).trans (hread (.inr rfl)).symm
      cases f with
      | token =>
          have htoken : some "a" = some "b" := congrArg Envelope.token hboth
          exact absurd htoken (by decide)
      | error =>
          obtain ⟨e, he⟩ := Option.isSome_iff_exists.1 (hvoiced hopen)
          have herror := congrArg Envelope.error hboth
          simp [assign, pushed, inRecord, he] at herror
      | _ => simp [assign, pushed, inRecord] at hboth

theorem Alike.inHeader_eq (hfield₁ : s₁.field = none) (hfield₂ : s₂.field = none) : s₁.inHeader = s₂.inHeader := by
  have hread := h (headlessProbe.flatMap Piece.source)
  rw [pieces_headlessProbe, outcome_headlessProbe h₁ hfield₁, outcome_headlessProbe h₂ hfield₂,
    h.envelope_eq h₁ h₂] at hread
  have hrecord := List.append_cancel_left (congrArg Envelope.records (Except.ok.inj hread))
  revert hrecord
  cases s₁.inHeader <;> cases s₂.inHeader <;> decide

/-- A record that is being read would be told by the end of the text. -/
theorem Alike.pushed_eq (hopened : s₁.opened = s₂.opened) (hnames : ∀ name ∈ s₁.opened, IsName name)
    (hhoused : ∃ name ∈ s₁.opened, Element.ofName name = .record) : s₁.pushed = s₂.pushed := by
  have hread := h ((s₁.opened.map Piece.closing).flatMap Piece.source)
  rw [pieces_closings hnames, outcome_closings rfl h₁ hnames (.inr hhoused),
    outcome_closings hopened.symm h₂ hnames (.inr hhoused)] at hread
  exact Except.ok.inj hread

end

end Reading

end Envelope

end Harvesting
