import Harvesting.Proofs.Markup.Written
import Harvesting.Protocol.Envelope

/-!
# Records rendered as a response

The rendering of records and a token as a response is free to put blanks between elements, prefixes of
namespaces before names, attributes behind them, and notes before the records.

* `Labelled`, `IsElement` — an element with a prefix or without one;
* `Listed` — elements one behind the other, with blanks around them or without;
* `Renderable` — records of which the values have no blanks at their ends, and the metadata is content;
* `Renders` — the responses that hold the records and the token; `exists_rendered` — there is one.
-/

namespace Harvesting

open Markup

namespace Envelope

/-! ## Renderings -/

/-- The name of an element is `label`, with a prefix or without one. -/
def Labelled (label : String) (name : List Char) : Prop :=
  IsName name ∧ (name = label.toList ∨ ∃ space, ':' ∉ space ∧ name = space ++ ':' :: label.toList)

inductive IsElement (label : String) (attrs content : List Char) : List Char → Prop where
  | mk {name g : List Char} : Labelled label name → IsAttributes attrs → IsGap g →
      IsElement label attrs content
        ('<' :: (name ++ attrs ++ '>' :: (content ++ '<' :: '/' :: (name ++ g ++ ['>']))))

/-- The parts one behind the other, with blanks around them or without. -/
inductive Listed : List (List Char → Prop) → List Char → Prop where
  | nil {g : List Char} : IsGap g → Listed [] g
  | cons {R : List Char → Prop} {Rs : List (List Char → Prop)} {g a b : List Char} :
      IsGap g → R a → Listed Rs b → Listed (R :: Rs) (g ++ (a ++ b))

/-- An element that holds a text. -/
def IsValue (label value : String) (cs : List Char) : Prop :=
  ∃ attrs, IsElement label attrs (escape value.toList) cs

def Field.label : Field → String
  | .identifier => "identifier"
  | .datestamp => "datestamp"
  | .setSpec => "setSpec"
  | .token => "resumptionToken"
  | .error => "error"

/-- What the header of a record says, in order. -/
def entries (r : Record) : List (Field × String) :=
  (.identifier, r.identifier) :: (r.datestamp.toList.map (.datestamp, ·) ++ r.sets.map (.setSpec, ·))

/-- A value without blanks at its ends that is not empty. -/
def IsTrimmed (value : String) : Prop := value ≠ "" ∧ Text.trimmed value = value

instance : DecidablePred IsTrimmed := fun _ => inferInstanceAs (Decidable (_ ∧ _))

/-- A record that can be rendered: its values are trimmed, and its metadata is trimmed content. -/
structure Renderable (r : Record) : Prop where
  values : ∀ x ∈ entries r, IsTrimmed x.2
  metadata : ∀ m ∈ r.metadata, Balanced m.toList ∧ Text.trimmed m = m

/-- The attributes of the header of a record that is deleted or not. -/
def headerAttributes (deleted : Bool) : List Char := if deleted then " status=\"deleted\"".toList else []

def IsHeader (r : Record) (cs : List Char) : Prop :=
  ∃ content, Listed ((entries r).map fun e => IsValue e.1.label e.2) content ∧
    IsElement "header" (headerAttributes r.deleted) content cs

def IsMetadata (metadata : String) (cs : List Char) : Prop :=
  ∃ attrs g g', IsGap g ∧ IsGap g' ∧ IsElement "metadata" attrs (g ++ (metadata.toList ++ g')) cs

def IsRecord (r : Record) (cs : List Char) : Prop :=
  ∃ attrs content, Listed (IsHeader r :: r.metadata.toList.map IsMetadata) content ∧
    IsElement "record" attrs content cs

def IsListing (rs : List Record) (token : Option String) (cs : List Char) : Prop :=
  ∃ attrs content, Listed (rs.map IsRecord ++ token.toList.map (IsValue Field.token.label)) content ∧
    IsElement "ListRecords" attrs content cs

/-- What a response may say before its records: when it was made, and for which request. -/
def notes : List String := ["responseDate", "request"]

def IsResponse (rs : List Record) (token : Option String) (cs : List Char) : Prop :=
  ∃ (attrs : List Char) (noted : List (String × String)) (content : List Char),
    (∀ e ∈ noted, e.1 ∈ notes) ∧
    Listed ((noted.map fun e => IsValue e.1 e.2) ++ [IsListing rs token]) content ∧
    IsElement "OAI-PMH" attrs content cs

def IsDeclaration (cs : List Char) : Prop := ∃ inner, (Piece.instruction inner).Proper ∧
  cs = (Piece.instruction inner).source

/-- The text is a response that holds the records and the token. -/
def Renders (rs : List Record) (token : Option String) (body : List Char) : Prop :=
  Listed [IsResponse rs token] body ∨ Listed [IsDeclaration, IsResponse rs token] body

/-! ## Names -/

variable {label : String} {name attrs cs : List Char}

theorem localName_bare (h : ':' ∉ cs) : Tag.localName cs = cs := by
  rw [Tag.localName, List.dropWhile_eq_nil_iff.2]
  rintro c hc
  apply decide_eq_true
  rintro rfl
  exact h hc

theorem localName_colon {space : List Char} (h : ':' ∉ space) (r : List Char) :
    Tag.localName (space ++ ':' :: r) = r := by
  have hspace : ∀ c ∈ space, decide (c ≠ ':') = true := by
    intro c hc
    apply decide_eq_true
    rintro rfl
    exact h hc
  rw [Tag.localName, List.dropWhile_append_of_pos hspace, List.dropWhile_cons_of_neg (by simp)]
  rfl

theorem Labelled.localName_eq (h : Labelled label name) (hlabel : ':' ∉ label.toList) :
    Tag.localName name = label.toList := by
  obtain ⟨-, rfl | ⟨space, hspace, rfl⟩⟩ := h
  · exact localName_bare hlabel
  · exact localName_colon hspace _

/-- Elements are known by their names without a prefix. -/
theorem Labelled.ofName_eq (h : Labelled label name) (hlabel : ':' ∉ label.toList) :
    Element.ofName name = Element.ofName label.toList := by
  rw [Element.ofName, Element.ofName, h.localName_eq hlabel, localName_bare hlabel]

theorem Field.ofName_label (f : Field) : Element.ofName f.label.toList = .field f := by
  cases f <;> rfl

/-! ## Values -/

theorem IsTrimmed.trim_eq {value : String} (h : IsTrimmed value) : Text.trim value.toList = value.toList := by
  have hchars := congrArg String.toList h.2
  rwa [Text.trimmed, String.toList_ofList] at hchars

theorem isAttributes_header (deleted : Bool) : IsAttributes (headerAttributes deleted) := by
  cases deleted with
  | false => exact .gap isGap_nil
  | true =>
      show IsAttributes ([' '] ++ ("status".toList ++ ([] ++ ('=' :: ([] ++ ('"' :: ("deleted".toList ++
        '"' :: [])))))))
      exact .cons (by decide) (by decide) (by decide) isGap_nil isGap_nil (.inl rfl) (by decide) (.gap isGap_nil)

/-! ## Every list of records can be rendered -/

theorem exists_element (hlabel : IsName label.toList) (hattrs : IsAttributes attrs) (content : List Char) :
    ∃ cs, IsElement label attrs content cs :=
  ⟨_, .mk (g := []) (⟨hlabel, .inl rfl⟩ : Labelled label label.toList) hattrs isGap_nil⟩

theorem exists_bare (hlabel : IsName label.toList) (content : List Char) :
    ∃ attrs cs, IsElement label attrs content cs := ⟨[], exists_element hlabel (.gap isGap_nil) content⟩

theorem exists_listed {Rs : List (List Char → Prop)} (h : ∀ R ∈ Rs, ∃ cs, R cs) : ∃ cs, Listed Rs cs := by
  induction Rs with
  | nil => exact ⟨[], .nil isGap_nil⟩
  | cons R Rs ih =>
      obtain ⟨a, ha⟩ := h R List.mem_cons_self
      obtain ⟨b, hb⟩ := ih fun R' hR' => h R' (List.mem_cons_of_mem R hR')
      exact ⟨_, .cons isGap_nil ha hb⟩

theorem exists_value (f : Field) (value : String) : ∃ cs, IsValue f.label value cs := by
  have hlabel : IsName f.label.toList := by cases f <;> decide
  obtain ⟨attrs, cs, h⟩ := exists_bare hlabel (escape value.toList)
  exact ⟨cs, attrs, h⟩

theorem exists_header (r : Record) : ∃ cs, IsHeader r cs := by
  have hvalues : ∀ R ∈ (entries r).map fun x => IsValue x.1.label x.2, ∃ cs, R cs := by
    intro R hR
    obtain ⟨x, -, rfl⟩ := List.mem_map.1 hR
    exact exists_value x.1 x.2
  obtain ⟨content, hcontent⟩ := exists_listed hvalues
  have hlabel : IsName "header".toList := by decide
  obtain ⟨cs, h⟩ := exists_element hlabel (isAttributes_header r.deleted) content
  exact ⟨cs, content, hcontent, h⟩

theorem exists_metadata (metadata : String) : ∃ cs, IsMetadata metadata cs := by
  have hlabel : IsName "metadata".toList := by decide
  obtain ⟨attrs, cs, h⟩ := exists_bare hlabel ([] ++ (metadata.toList ++ []))
  exact ⟨cs, attrs, [], [], isGap_nil, isGap_nil, h⟩

theorem exists_record (r : Record) : ∃ cs, IsRecord r cs := by
  have hparts : ∀ R ∈ IsHeader r :: r.metadata.toList.map IsMetadata, ∃ cs, R cs := by
    intro R hR
    rcases List.mem_cons.1 hR with rfl | hR
    · exact exists_header r
    · obtain ⟨m, -, rfl⟩ := List.mem_map.1 hR
      exact exists_metadata m
  obtain ⟨content, hcontent⟩ := exists_listed hparts
  have hlabel : IsName "record".toList := by decide
  obtain ⟨attrs, cs, h⟩ := exists_bare hlabel content
  exact ⟨cs, attrs, content, hcontent, h⟩

theorem exists_listing (rs : List Record) (token : Option String) : ∃ cs, IsListing rs token cs := by
  have hparts : ∀ R ∈ rs.map IsRecord ++ token.toList.map (IsValue Field.token.label), ∃ cs, R cs := by
    intro R hR
    rcases List.mem_append.1 hR with hR | hR
    · obtain ⟨r, -, rfl⟩ := List.mem_map.1 hR
      exact exists_record r
    · obtain ⟨t, -, rfl⟩ := List.mem_map.1 hR
      exact exists_value .token t
  obtain ⟨content, hcontent⟩ := exists_listed hparts
  have hlabel : IsName "ListRecords".toList := by decide
  obtain ⟨attrs, cs, h⟩ := exists_bare hlabel content
  exact ⟨cs, attrs, content, hcontent, h⟩

theorem exists_rendered (rs : List Record) (token : Option String) : ∃ body, Renders rs token body := by
  obtain ⟨listing, hlisting⟩ := exists_listing rs token
  have hcontent : Listed [IsListing rs token] ([] ++ (listing ++ [])) := .cons isGap_nil hlisting (.nil isGap_nil)
  have hlabel : IsName "OAI-PMH".toList := by decide
  obtain ⟨attrs, cs, h⟩ := exists_bare hlabel ([] ++ (listing ++ []))
  exact ⟨_, .inl (.cons isGap_nil ⟨attrs, [], _, List.forall_mem_nil _, hcontent, h⟩ (.nil isGap_nil))⟩

/-! ## The first character -/

theorem withoutMark_of_first (h : ∀ c ∈ cs.head?, c ≠ '\uFEFF') : withoutMark cs = cs := by
  rw [withoutMark.eq_def]
  split
  · exact absurd rfl (h '\uFEFF' rfl)
  · rfl

theorem Listed.first {R : List Char → Prop} {Rs : List (List Char → Prop)} (h : Listed (R :: Rs) cs)
    (hR : ∀ a, R a → a.head? = some '<') : ∀ c ∈ cs.head?, c ≠ '\uFEFF' := by
  cases h with
  | @cons _ _ g a b hg ha _ =>
      cases g with
      | nil =>
          rw [List.nil_append, List.head?_append, hR a ha]
          rintro _ ⟨⟩
          decide
      | cons x g =>
          rintro _ ⟨⟩ rfl
          cases hg '\uFEFF' List.mem_cons_self

theorem Renders.first {rs : List Record} {token : Option String} (h : Renders rs token cs) :
    ∀ c ∈ cs.head?, c ≠ '\uFEFF' := by
  rcases h with h | h
  · apply h.first
    rintro _ ⟨_, _, _, _, _, ⟨⟩⟩
    rfl
  · apply h.first
    rintro _ ⟨_, _, rfl⟩
    rfl

end Envelope

end Harvesting
