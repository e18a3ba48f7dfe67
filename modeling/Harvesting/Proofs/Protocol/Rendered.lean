import Harvesting.Proofs.Protocol.Envelope
import Harvesting.Proofs.Protocol.Rendering

/-!
# Responses are read as they were rendered

Records and a token, rendered as a response, are read as they were. Metadata is any content: elements
inside it that are named like the ones around it say nothing.

    records, token ──Renders──▶ body (List Char) ──read──▶ the same records and token

* `Reading.Carries` — pieces that lead from one reading to another, wherever they stand;
* `Reading.Fills`, `Reading.Part` — a text that is written as such pieces, inside an element or among others;
* `Reading.fills_map` — parts of a kind are read one after the other;
* `Reading.carries_content` — metadata is gathered as it was written;
* `Reading.part_value`, `Reading.part_header`, `Reading.part_record` and so on — the elements of a response;
* `Envelope.read_rendered` — the whole of it.
-/

namespace Harvesting

open Markup

namespace Envelope

variable {label : String} {name attrs content cs a b : List Char} {p : Piece} {ps qs : List Piece}

namespace Reading

/-! ## Pieces that lead from one reading to another -/

variable {s s₁ s₂ s' : Reading}

/-- The same reading after `n` bytes. -/
def upTo (s : Reading) (n : Nat) : Reading := { s with offset := n }

/-- The pieces lead from one reading to the other, however many bytes were read before. -/
def Carries (s : Reading) (ps : List Piece) (s' : Reading) : Prop :=
  ∀ n, ∃ n', ps.foldlM step (s.upTo n) = .ok (s'.upTo n')

theorem carries_nil (s : Reading) : Carries s [] s := fun n => ⟨n, rfl⟩

theorem Carries.append (h : Carries s ps s₁) (h' : Carries s₁ qs s') : Carries s (ps ++ qs) s' := by
  intro n
  obtain ⟨n₁, h₁⟩ := h n
  obtain ⟨n', h₂⟩ := h' n₁
  exact ⟨n', by rw [List.foldlM_append, h₁]; exact h₂⟩

theorem Carries.cons (h : Carries s [p] s₁) (h' : Carries s₁ ps s') : Carries s (p :: ps) s' := h.append h'

theorem carries_outside {opened : List (List Char)} (hpayload : s.payload = none)
    (hnest : nest s.opened p = .ok opened) (h : ∀ n, (s.upTo n).outside p = .ok (s₁.upTo n)) :
    Carries s [p] { s₁ with opened } := by
  intro n
  refine ⟨n + Utf8.length p.source, ?_⟩
  rw [List.foldlM_cons, step_outside (s := s.upTo n) hpayload hnest (h n)]
  rfl

/-- The text is the content of an element, and leads from one reading to the other. -/
def Fills (s : Reading) (cs : List Char) (s' : Reading) : Prop :=
  ∃ ps, ps.flatMap Piece.source = cs ∧ (∀ p ∈ ps, p.Proper) ∧ Separate ps ∧ Carries s ps s'

/-- The text can stand anywhere among others, and leads from one reading to the other. -/
def Part (s : Reading) (cs : List Char) (s' : Reading) : Prop :=
  ∃ ps, ps.flatMap Piece.source = cs ∧ (∀ p ∈ ps, p.Proper) ∧ Block ps ∧ Carries s ps s'

theorem part_element (ha : IsTag name a) (hb : IsEndTag name b) (hopen : Carries s [.opening a] s₁)
    (hcontent : Fills s₁ content s₂) (hclose : Carries s₂ [.closing b] s') :
    Part s ('<' :: (a ++ '>' :: (content ++ '<' :: '/' :: (b ++ ['>'])))) s' := by
  obtain ⟨ps, rfl, hproper, hseparate, hcarries⟩ := hcontent
  refine ⟨.opening a :: (ps ++ [.closing b]), by simp, ?_, block_element hseparate,
    hopen.cons (hcarries.append hclose)⟩
  rintro p (_ | ⟨_, hp⟩)
  · exact ⟨name, ha⟩
  · rcases List.mem_append.1 hp with hp | hp
    · exact hproper p hp
    · cases List.mem_singleton.1 hp
      exact ⟨name, hb⟩

/-! ## Texts between elements -/

/-- Neither a value nor metadata is being read. -/
def IsCalm (s : Reading) : Prop := s.field = none ∧ s.payload = none

theorem IsCalm.carries_text (hs : s.IsCalm) (cs : List Char) : Carries s [.text cs] s := by
  apply carries_outside hs.2 rfl
  intro n
  show (s.upTo n).text cs = _
  rw [text, if_pos (.inl (Option.isNone_iff_eq_none.2 hs.1))]

theorem IsCalm.fills_text (hs : s.IsCalm) (hcs : '<' ∉ cs) : Fills s cs s := by
  by_cases hnil : cs = []
  · subst hnil
    exact ⟨[], rfl, List.forall_mem_nil _, separate_nil, carries_nil s⟩
  · have hproper : ∀ p ∈ [Piece.text cs], p.Proper := List.forall_mem_singleton.2 ⟨hnil, hcs⟩
    exact ⟨[.text cs], by simp, hproper, separate_single _, hs.carries_text cs⟩

theorem IsCalm.fills_gap (hs : s.IsCalm) (hcs : IsGap cs) : Fills s cs s := hs.fills_text (notMem_gap hcs)

section

variable {R : List Char → Prop} {Rs : List (List Char → Prop)}

theorem IsCalm.fills_cons (hs : s.IsCalm) (h : Listed (R :: Rs) cs) (hR : ∀ a, R a → Part s a s₁)
    (hRs : ∀ b, Listed Rs b → Fills s₁ b s') : Fills s cs s' := by
  cases h with
  | @cons _ _ g a b hg ha hb =>
      obtain ⟨gs, rfl, hproper, hseparate, hcarries⟩ := hs.fills_gap hg
      obtain ⟨ps, rfl, hproper₁, hblock, hcarries₁⟩ := hR a ha
      obtain ⟨qs, rfl, hproper₂, hseparate₂, hcarries₂⟩ := hRs b hb
      refine ⟨gs ++ (ps ++ qs), by simp, ?_, hblock gs qs hseparate hseparate₂,
        hcarries.append (hcarries₁.append hcarries₂)⟩
      intro p hp
      rcases List.mem_append.1 hp with hp | hp
      · exact hproper p hp
      · rcases List.mem_append.1 hp with hp | hp
        · exact hproper₁ p hp
        · exact hproper₂ p hp

theorem IsCalm.fills_nil (hs : s.IsCalm) (h : Listed [] cs) : Fills s cs s := by
  cases h with
  | nil hg => exact hs.fills_gap hg

/-- Parts of a kind are read one after the other; what was read so far is the state `x`. -/
theorem fills_map {σ α : Type} {t : σ → Reading} {f : σ → α → σ} {S : α → List Char → Prop}
    {as : List α} (ht : ∀ x, (t x).IsCalm)
    (hS : ∀ x, ∀ a ∈ as, ∀ cs, S a cs → Part (t x) cs (t (f x a))) (x : σ)
    (h : Listed (as.map S ++ Rs) cs) (hRs : ∀ b, Listed Rs b → Fills (t (as.foldl f x)) b s') :
    Fills (t x) cs s' := by
  induction as generalizing x cs with
  | nil => exact hRs cs h
  | cons a as ih =>
      apply (ht x).fills_cons h (hS x a List.mem_cons_self)
      intro b hb
      exact ih (fun x a ha => hS x a (List.mem_cons_of_mem _ ha)) (f x a) hb hRs

theorem fills_map_all {σ α : Type} {t : σ → Reading} {f : σ → α → σ} {S : α → List Char → Prop}
    {as : List α} (ht : ∀ x, (t x).IsCalm)
    (hS : ∀ x, ∀ a ∈ as, ∀ cs, S a cs → Part (t x) cs (t (f x a))) (x : σ)
    (h : Listed (as.map S) cs) : Fills (t x) cs (t (as.foldl f x)) := by
  rw [← List.append_nil (as.map S)] at h
  exact fills_map ht hS x h fun b hb => (ht _).fills_nil hb

end

/-! ## Elements -/

/-- The reading between two elements. -/
def calm (e : Envelope) (record : Option Record) (inHeader : Bool) (opened : List (List Char)) : Reading :=
  ⟨e, record, inHeader, none, none, opened, 0⟩

section

variable {e e' : Envelope} {record record' : Option Record} {inHeader inHeader' : Bool}
  {opened : List (List Char)}

theorem isCalm_calm : (calm e record inHeader opened).IsCalm := ⟨rfl, rfl⟩

theorem upTo_closeTag (s : Reading) (n : Nat) (body : List Char) :
    (s.upTo n).closeTag body = (s.closeTag body).upTo n := by
  rw [closeTag, closeTag]
  split <;> rfl

theorem carries_opening (ha : IsTag name a) (hpayload : s.payload = none) (hopened : s'.opened = name :: s.opened)
    (h : ∀ n, (s.upTo n).openTag a = .ok ({ s' with opened := s.opened }.upTo n)) : Carries s [.opening a] s' := by
  have hcarries := carries_outside hpayload (ha.nest_eq s.opened) h
  cases s'
  cases hopened
  exact hcarries

theorem carries_closing (hb : IsEndTag name b) (hopened : s.opened = name :: opened)
    (hpayload : s.payload = none) : Carries s [.closing b] { s.closeTag b with opened } := by
  apply carries_outside hpayload
  · rw [hopened, hb.nest_eq]
  · intro n
    show Except.ok ((s.upTo n).closeTag b) = _
    rw [upTo_closeTag]

/-- An element with its tags taken apart. `kind` says what the reader takes it for. -/
structure Tagged (kind : Element) (name attrs a b : List Char) : Prop where
  isTag : IsTag name a
  isEndTag : IsEndTag name b
  opens : Element.ofTag a = kind
  closes : Element.ofName (Tag.closedName b) = kind
  body : a = name ++ attrs

theorem part_of_isElement {kind : Element} (h : IsElement label attrs content cs) (hlabel : ':' ∉ label.toList)
    (hkind : Element.ofName label.toList = kind)
    (hparts : ∀ name a b, Tagged kind name attrs a b → ∃ s₁ s₂, Carries s [.opening a] s₁ ∧
      Fills s₁ content s₂ ∧ Carries s₂ [.closing b] s') : Part s cs s' := by
  cases h with
  | @mk name g hname hattrs hg =>
      have ha : IsTag name (name ++ attrs) := ⟨attrs, hname.1, hattrs, rfl⟩
      have hb : IsEndTag name (name ++ g) := ⟨g, hname.1, hg, rfl⟩
      have htagged : Tagged kind name attrs (name ++ attrs) (name ++ g) := by
        refine ⟨ha, hb, ?_, ?_, rfl⟩
        · rw [Element.ofTag, ha.name_eq, hname.ofName_eq hlabel, hkind]
        · rw [hb.closedName_eq, hname.ofName_eq hlabel, hkind]
      obtain ⟨s₁, s₂, hopen, hcontent, hclose⟩ := hparts _ _ _ htagged
      exact part_element ha hb hopen hcontent hclose

/-- An element that does not count is read for what is inside it. -/
theorem part_other (h : IsElement label attrs content cs) (hlabel : ':' ∉ label.toList)
    (hkind : Element.ofName label.toList = .other)
    (hcontent : ∀ name, Fills (calm e record inHeader (name :: opened)) content
      (calm e' record' inHeader' (name :: opened))) :
    Part (calm e record inHeader opened) cs (calm e' record' inHeader' opened) := by
  apply part_of_isElement h hlabel hkind
  intro name a b htagged
  refine ⟨calm e record inHeader (name :: opened), calm e' record' inHeader' (name :: opened), ?_,
    hcontent name, ?_⟩
  · apply carries_opening htagged.isTag rfl rfl
    intro n
    rw [openTag, htagged.opens]
    rfl
  · have hclose := carries_closing (s := calm e' record' inHeader' (name :: opened)) htagged.isEndTag rfl rfl
    rw [closeTag, htagged.closes] at hclose
    exact hclose

theorem part_note {value : String} (h : IsValue label value cs) (hlabel : label ∈ notes) :
    Part (calm e record inHeader opened) cs (calm e record inHeader opened) := by
  obtain ⟨attrs, h⟩ := h
  have hlabel : ':' ∉ label.toList ∧ Element.ofName label.toList = .other := by
    simp only [notes, List.mem_cons, List.not_mem_nil, or_false] at hlabel
    rcases hlabel with rfl | rfl
    · exact ⟨by decide, rfl⟩
    · exact ⟨by decide, rfl⟩
  apply part_other h hlabel.1 hlabel.2
  intro name
  exact isCalm_calm.fills_text (notMem_escape _)

theorem part_value {f : Field} {value : String} (h : IsValue f.label value cs) (hvalue : IsTrimmed value)
    (hf : f = .token ∨ f ≠ .error ∧ inHeader = true) :
    Part (calm e record inHeader opened) cs ((calm e record inHeader opened).assign f value) := by
  obtain ⟨attrs, h⟩ := h
  apply part_of_isElement h (by cases f <;> decide) f.ofName_label
  intro name a b htagged
  have hescape : escape value.toList ≠ [] := by
    apply escape_ne_nil
    intro hnil
    exact hvalue.1 (String.toList_eq_nil_iff.1 hnil)
  have hproper : ∀ p ∈ [Piece.text (escape value.toList)], p.Proper :=
    List.forall_mem_singleton.2 ⟨hescape, notMem_escape _⟩
  let s₁ : Reading := { calm e record inHeader (name :: opened) with field := some f }
  refine ⟨s₁, s₁.assign f value, ?_,
    ⟨[.text (escape value.toList)], by simp, hproper, separate_single _, ?_⟩, ?_⟩
  · apply carries_opening htagged.isTag rfl rfl
    intro n
    rw [openTag, htagged.opens]
    rcases hf with rfl | ⟨hf, rfl⟩
    · rfl
    · cases f with
      | error => exact absurd rfl hf
      | _ => rfl
  · have hread (n : Nat) : (s₁.upTo n).outside (.text (escape value.toList)) =
        .ok ((s₁.assign f value).upTo n) := by
      show (s₁.upTo n).text _ = _
      rw [text, strip_escape hvalue.trim_eq, if_neg (by simp [s₁, upTo, hescape]), unescape_escape]
      show Except.ok ((s₁.upTo n).assign f (String.ofList (Text.trim value.toList))) = _
      rw [hvalue.trim_eq, String.ofList_toList]
      cases f <;> rfl
    have hcarries := carries_outside (s := s₁) (p := .text (escape value.toList)) rfl rfl hread
    cases f <;> exact hcarries
  · have hopened : (s₁.assign f value).opened = name :: opened := by cases f <;> rfl
    have hclose := carries_closing htagged.isEndTag hopened (by cases f <;> rfl)
    rw [closeTag, htagged.closes] at hclose
    cases f <;> exact hclose

/-! ### Headers -/

/-- The record with one more value of its header. -/
def keep (r : Record) (e : Field × String) : Record :=
  match e.1 with
  | .identifier => { r with identifier := e.2 }
  | .datestamp => { r with datestamp := some e.2 }
  | .setSpec => { r with sets := r.sets ++ [e.2] }
  | .token | .error => r

theorem foldl_keep_sets (sets : List String) (r : Record) :
    (sets.map (Field.setSpec, ·)).foldl keep r = { r with sets := r.sets ++ sets } := by
  induction sets generalizing r with
  | nil => simp
  | cons x sets ih =>
      rw [List.map_cons, List.foldl_cons, ih]
      simp [keep]

/-- What a header says is all that is known of a record but for its metadata. -/
theorem foldl_keep_entries (r : Record) :
    (entries r).foldl keep { Record.empty with deleted := r.deleted } = { r with metadata := none } := by
  rw [entries, List.foldl_cons, List.foldl_append, foldl_keep_sets]
  cases hdatestamp : r.datestamp with
  | none => simp [keep, Record.empty]
  | some d => simp [keep, Record.empty]

theorem field_of_mem_entries {r : Record} {x : Field × String} (h : x ∈ entries r) :
    x.1 ≠ .token ∧ x.1 ≠ .error := by
  simp only [entries, List.mem_cons, List.mem_append, List.mem_map] at h
  rcases h with rfl | ⟨_, _, rfl⟩ | ⟨_, _, rfl⟩
  · exact ⟨nofun, nofun⟩
  · exact ⟨nofun, nofun⟩
  · exact ⟨nofun, nofun⟩

theorem attribute?_header (hname : IsName name) (deleted : Bool) :
    Tag.attribute? deletedStatus.1 (name ++ headerAttributes deleted) =
      .ok (if deleted then some deletedStatus.2.toList else none) := by
  cases deleted with
  | false =>
      apply attribute?_bare
      simpa [headerAttributes] using fun c hc => (hname.2 c hc).1
  | true =>
      have hrest : (name ++ headerAttributes true).dropWhile (!isSpace ·) = headerAttributes true := by
        rw [List.dropWhile_append_of_pos (by simpa using fun c hc => (hname.2 c hc).1)]
        rfl
      have hvalue : unescape deletedStatus.2.toList = .ok deletedStatus.2.toList :=
        unescape_escape "deleted".toList
      have hfind (position : List Char → Nat) :
          Tag.find? position deletedStatus.1.toList (headerAttributes true) = .ok (some deletedStatus.2.toList) :=
        find?_first (c := 's') (r := "tatus=\"deleted\"".toList) (x := ⟨"status".toList, "deleted".toList, []⟩)
          rfl rfl rfl
      rw [Tag.attribute?, hrest, hfind]
      show (do return some (← unescape deletedStatus.2.toList)) = _
      rw [hvalue]
      rfl

theorem part_header {r : Record} (h : IsHeader r cs) (hr : ∀ x ∈ entries r, IsTrimmed x.2) :
    Part (calm e (some .empty) false opened) cs (calm e (some { r with metadata := none }) false opened) := by
  obtain ⟨content, hcontent, h⟩ := h
  apply part_of_isElement h (by decide) rfl
  intro name a b htagged
  refine ⟨calm e (some { Record.empty with deleted := r.deleted }) true (name :: opened),
    calm e (some { r with metadata := none }) true (name :: opened), ?_, ?_, ?_⟩
  · apply carries_opening htagged.isTag rfl rfl
    intro n
    obtain ⟨-, hname, -⟩ := htagged.isTag
    rw [openTag, htagged.opens]
    show Reading.header _ a = _
    rw [header, htagged.body, attribute?_header hname]
    cases r.deleted <;> rfl
  · rw [← foldl_keep_entries]
    apply fills_map_all (t := fun r => calm e (some r) true (name :: opened)) (fun _ => isCalm_calm) _ _ hcontent
    intro r' x hx cs hvalue
    obtain ⟨htoken, herror⟩ := field_of_mem_entries hx
    have hpart : Part (calm e (some r') true (name :: opened)) cs
        ((calm e (some r') true (name :: opened)).assign x.1 x.2) :=
      part_value hvalue (hr x hx) (.inr ⟨herror, rfl⟩)
    obtain ⟨f, value⟩ := x
    cases f with
    | token => exact absurd rfl htoken
    | error => exact absurd rfl herror
    | _ => exact hpart
  · have hclose := carries_closing (s := calm e (some { r with metadata := none }) true (name :: opened))
      htagged.isEndTag rfl rfl
    rw [closeTag, htagged.closes] at hclose
    exact hclose

/-! ### Metadata -/

/-- The reading inside metadata. -/
def gathering (s : Reading) (q : Payload) (opened : List (List Char)) : Reading :=
  { s with payload := some q, opened }

/-- The metadata with more of its source. -/
def gathered (q : Payload) (cs : List Char) : Payload := { q with source := q.source ++ cs }

@[simp] theorem gathered_nil (q : Payload) : gathered q [] = q := by simp [gathered]

@[simp] theorem gathered_gathered (q : Payload) (a b : List Char) :
    gathered (gathered q a) b = gathered q (a ++ b) := by simp [gathered]

theorem carries_inside {q : Payload} {opened' : List (List Char)} (hnest : nest opened p = .ok opened')
    (hq : q.outer < opened'.length) :
    Carries (s.gathering q opened) [p] (s.gathering (gathered q p.source) opened') := by
  intro n
  refine ⟨n + Utf8.length p.source, ?_⟩
  rw [List.foldlM_cons, step_inside (s := (s.gathering q opened).upTo n) rfl hnest, inside,
    if_neg (Nat.ne_of_gt hq)]
  rfl

/-- What is inside metadata is gathered as it was written, whatever its elements are named. -/
theorem carries_content (h : IsContent ps) {q : Payload} (hq : q.outer < opened.length) :
    Carries (s.gathering q opened) ps (s.gathering (gathered q (ps.flatMap Piece.source)) opened) := by
  induction h generalizing q opened with
  | nil =>
      rw [List.flatMap_nil, gathered_nil]
      exact carries_nil _
  | @leaf p ps hp htag _ ih =>
      rw [List.flatMap_cons, ← gathered_gathered]
      exact (carries_inside (nest_leaf hp htag opened) hq).cons (ih hq)
  | @element name a b inner ps ha hb _ _ ihinner ih =>
      -- inside the element one more is open, so the metadata does not end at its end tag either
      have hinner : q.outer < (name :: opened).length := Nat.lt_succ_of_lt hq
      have hopen : Carries (s.gathering q opened) [.opening a] _ := carries_inside (ha.nest_eq opened) hinner
      have hinside := hopen.cons (ihinner (q := gathered q (Piece.opening a).source) hinner)
      have hclose := hinside.append (carries_inside (hb.nest_eq opened) hq)
      have hwhole := hclose.append (ih hq)
      simpa using hwhole

def withMetadata (r : Record) (metadata : String) : Record := { r with metadata := some metadata }

/-- The end tag of the element that holds the metadata ends it. -/
theorem carries_end {q : Payload} (hb : IsEndTag name b) (hq : opened.length = q.outer) :
    Carries (s.gathering q (name :: opened)) [.closing b] { s with
      record := s.record.map (withMetadata · (String.ofList (Text.trim q.source)))
      payload := none
      opened } := by
  intro n
  refine ⟨n + Utf8.length (Piece.closing b).source, ?_⟩
  rw [List.foldlM_cons, step_inside (s := (s.gathering q (name :: opened)).upTo n) rfl (hb.nest_eq opened), inside,
    if_pos hq]
  rfl

theorem part_metadata {r : Record} {metadata : String} (h : IsMetadata metadata cs)
    (hbalanced : Balanced metadata.toList) (htrimmed : Text.trimmed metadata = metadata) :
    Part (calm e (some r) false opened) cs
      (calm e (some { r with metadata := some metadata }) false opened) := by
  obtain ⟨attrs, g, g', hg, hg', h⟩ := h
  apply part_of_isElement h (by decide) rfl
  intro name a b htagged
  obtain ⟨ps, hcontent, hseparate, hsource⟩ :=
    ((balanced_text (notMem_gap hg)).append (hbalanced.append (balanced_text (notMem_gap hg')))).exists_content
  let q : Payload := ⟨name, opened.length, []⟩
  have htrim : String.ofList (Text.trim (ps.flatMap Piece.source)) = metadata := by
    have hchars := congrArg String.toList htrimmed
    rw [Text.trimmed, String.toList_ofList] at hchars
    rw [hsource, Text.trim_append (fun c hc => isBlank_of_isSpace (hg c hc))
      (fun c hc => isBlank_of_isSpace (hg' c hc)) hchars, String.ofList_toList]
  refine ⟨(calm e (some r) false opened).gathering q (name :: opened),
    (calm e (some r) false opened).gathering (gathered q (ps.flatMap Piece.source)) (name :: opened), ?_,
    ⟨ps, hsource, hcontent.proper, hseparate, carries_content hcontent (Nat.lt_succ_self _)⟩, ?_⟩
  · apply carries_opening htagged.isTag rfl rfl
    intro n
    rw [openTag, htagged.opens, htagged.isTag.name_eq]
    rfl
  · have hclose : Carries ((calm e (some r) false opened).gathering (gathered q (ps.flatMap Piece.source))
        (name :: opened)) [.closing b] _ := carries_end htagged.isEndTag rfl
    rw [show (gathered q (ps.flatMap Piece.source)).source = ps.flatMap Piece.source from rfl, htrim] at hclose
    exact hclose

/-! ### Records -/

theorem foldl_withMetadata (r : Record) :
    r.metadata.toList.foldl withMetadata { r with metadata := none } = r := by
  obtain ⟨identifier, datestamp, sets, deleted, metadata⟩ := r
  cases metadata <;> rfl

/-- The envelope with one more record. -/
def withRecord (e : Envelope) (r : Record) : Envelope := { e with records := e.records ++ [r] }

theorem part_record {r : Record} (h : IsRecord r cs) (hr : Renderable r) :
    Part (calm e none false opened) cs (calm (withRecord e r) none false opened) := by
  obtain ⟨attrs, content, hcontent, h⟩ := h
  apply part_of_isElement h (by decide) rfl
  intro name a b htagged
  let t (r : Record) : Reading := calm e (some r) false (name :: opened)
  refine ⟨t .empty, t r, ?_, ?_, ?_⟩
  · apply carries_opening htagged.isTag rfl rfl
    intro n
    rw [openTag, htagged.opens]
    rfl
  · apply isCalm_calm.fills_cons hcontent fun _ hheader => part_header hheader hr.values
    intro b hb
    have hfills : Fills (t { r with metadata := none }) b
        (t (r.metadata.toList.foldl withMetadata { r with metadata := none })) := by
      apply fills_map_all (t := t) (f := withMetadata) (fun _ => isCalm_calm) _ _ hb
      intro r' m hm cs hmetadata
      obtain ⟨hbalanced, htrimmed⟩ := hr.metadata m (Option.mem_toList.1 hm)
      exact part_metadata hmetadata hbalanced htrimmed
    rwa [foldl_withMetadata] at hfills
  · have hclose := carries_closing (s := t r) htagged.isEndTag rfl rfl
    rw [closeTag, htagged.closes] at hclose
    exact hclose

/-! ### Responses -/

variable {rs : List Record} {token : Option String}

theorem foldl_withRecord (rs : List Record) (e : Envelope) :
    rs.foldl withRecord e = { e with records := e.records ++ rs } := by
  induction rs generalizing e with
  | nil => simp
  | cons r rs ih =>
      rw [List.foldl_cons, ih]
      simp [withRecord]

theorem foldl_withRecord_nil (rs : List Record) : rs.foldl withRecord ⟨[], none, none⟩ = ⟨rs, none, none⟩ :=
  foldl_withRecord rs ⟨[], none, none⟩

def withToken (e : Envelope) (token : String) : Envelope := { e with token := some token }

theorem foldl_withToken (rs : List Record) (token : Option String) :
    token.toList.foldl withToken ⟨rs, none, none⟩ = ⟨rs, token, none⟩ := by
  cases token <;> rfl

theorem part_token {value : String} (h : IsValue Field.token.label value cs) (hvalue : IsTrimmed value) :
    Part (calm e none false opened) cs (calm (withToken e value) none false opened) := by
  have hpart : Part (calm e none false opened) cs ((calm e none false opened).assign .token value) :=
    part_value h hvalue (.inl rfl)
  rw [assign, if_neg hvalue.1] at hpart
  exact hpart

theorem part_listing (h : IsListing rs token cs) (hrs : ∀ r ∈ rs, Renderable r)
    (htoken : ∀ t ∈ token, IsTrimmed t) :
    Part (calm ⟨[], none, none⟩ none false opened) cs (calm ⟨rs, token, none⟩ none false opened) := by
  obtain ⟨attrs, content, hcontent, h⟩ := h
  apply part_other h (by decide) rfl
  intro name
  apply fills_map (t := fun e => calm e none false (name :: opened)) (f := withRecord) (fun _ => isCalm_calm)
    (fun _ r hr _ hrecord => part_record hrecord (hrs r hr)) ⟨[], none, none⟩ hcontent
  intro b hb
  rw [foldl_withRecord_nil, ← foldl_withToken rs token]
  exact fills_map_all (t := fun e => calm e none false (name :: opened)) (f := withToken) (fun _ => isCalm_calm)
    (fun _ v hv _ hvalue => part_token hvalue (htoken v (Option.mem_toList.1 hv))) _ hb

theorem part_response (h : IsResponse rs token cs) (hrs : ∀ r ∈ rs, Renderable r)
    (htoken : ∀ t ∈ token, IsTrimmed t) :
    Part (calm ⟨[], none, none⟩ none false opened) cs (calm ⟨rs, token, none⟩ none false opened) := by
  obtain ⟨attrs, noted, content, hnoted, hcontent, h⟩ := h
  apply part_other h (by decide) rfl
  intro name
  apply fills_map (t := fun _ : Unit => calm ⟨[], none, none⟩ none false (name :: opened)) (f := fun _ _ => ())
    (fun _ => isCalm_calm) (fun _ x hx _ hnote => part_note hnote (hnoted x hx)) () hcontent
  intro b hb
  exact isCalm_calm.fills_cons hb (fun _ h => part_listing h hrs htoken) fun _ h => isCalm_calm.fills_nil h

theorem IsCalm.part_declaration (hs : s.IsCalm) (h : IsDeclaration cs) : Part s cs s := by
  obtain ⟨inner, hproper, rfl⟩ := h
  have hblock : Block [.instruction inner] := fun _ _ hbefore hafter => hbefore.around rfl hafter
  exact ⟨[.instruction inner], by simp, List.forall_mem_singleton.2 hproper, hblock,
    carries_outside hs.2 rfl fun _ => rfl⟩

theorem fills_rendered {body : List Char} (h : Renders rs token body) (hrs : ∀ r ∈ rs, Renderable r)
    (htoken : ∀ t ∈ token, IsTrimmed t) : Fills start body (calm ⟨rs, token, none⟩ none false []) := by
  have hstart : start.IsCalm := ⟨rfl, rfl⟩
  have hresponse (b : List Char) (hb : Listed [IsResponse rs token] b) :
      Fills start b (calm ⟨rs, token, none⟩ none false []) :=
    hstart.fills_cons hb (fun _ h => part_response h hrs htoken) fun _ h => isCalm_calm.fills_nil h
  rcases h with h | h
  · exact hresponse body h
  · exact hstart.fills_cons h (fun _ h => hstart.part_declaration h) hresponse

end

end Reading

/-! ## Whole responses -/

section

variable {rs : List Record} {token : Option String} {body : List Char}

/--
Records and a token that are rendered are read as they were, in order and with their metadata unchanged,
and there is no error.
-/
theorem read_rendered (hrs : ∀ r ∈ rs, Renderable r) (htoken : ∀ t ∈ token, IsTrimmed t) :
    (∃ body, Renders rs token body) ∧
      ∀ body, Renders rs token body → read body = .ok ⟨rs, token, none⟩ := by
  refine ⟨exists_rendered rs token, ?_⟩
  intro body h
  obtain ⟨ps, hsource, hproper, hseparate, hcarries⟩ := Reading.fills_rendered h hrs htoken
  have hpieces : pieces body = ps := by rw [← hsource, pieces_flatMap_source hproper hseparate]
  obtain ⟨n, hrun⟩ := hcarries 0
  rw [read, withoutMark_of_first h.first, hpieces]
  show (do (← ps.foldlM Reading.step (Reading.start.upTo 0)).finish) = _
  rw [hrun]
  rfl

/-- Metadata with elements that are named like the ones around it. -/
def nested : String := "<record><metadata a='>'>1 > 0</metadata><!-- </metadata> --></record>"

/-- A record that is deleted, and one with metadata. -/
def sampleRecords : List Record :=
  [⟨"oai:1", some "2024-01-01", ["a & b", "c"], true, none⟩, ⟨"<oai:2>", none, [], false, some nested⟩]

theorem balanced_nested : Balanced nested.toList := by
  have hend {name : List Char} (hname : IsName name) : IsEndTag name name :=
    ⟨[], hname, isGap_nil, (List.append_nil name).symm⟩
  have hrecord : IsTag "record".toList "record".toList := ⟨[], by decide, .gap isGap_nil, rfl⟩
  have hattrs : IsAttributes ([' '] ++ (['a'] ++ ([] ++ ('=' :: ([] ++ ('\'' :: (['>'] ++ ('\'' :: [])))))))) :=
    .cons (by decide) (by decide) (by decide) isGap_nil isGap_nil (.inr rfl) (by decide) (.gap isGap_nil)
  have hmetadata : IsTag "metadata".toList "metadata a='>'".toList := ⟨_, by decide, hattrs, rfl⟩
  have hcomment : Balanced ((Piece.comment " </metadata> ".toList).source ++ []) :=
    .leaf (show ¬ _ by decide) rfl rfl .nil
  have hinner : Balanced ('<' :: ("metadata a='>'".toList ++ '>' :: ("1 > 0".toList ++ '<' :: '/' ::
      ("metadata".toList ++ '>' :: ((Piece.comment " </metadata> ".toList).source ++ []))))) :=
    .element hmetadata (hend (by decide)) (balanced_text (by decide)) hcomment
  exact .element hrecord (hend (by decide)) hinner .nil

theorem renderable_sample : ∀ r ∈ sampleRecords, Renderable r := by
  have hvalues : ∀ r ∈ sampleRecords, ∀ x ∈ entries r, IsTrimmed x.2 := by decide
  intro r hr
  refine ⟨hvalues r hr, ?_⟩
  intro m hm
  have hnested : m = nested := by
    simp only [sampleRecords, List.mem_cons, List.not_mem_nil, or_false] at hr
    rcases hr with rfl | rfl
    · cases hm
    · cases hm
      rfl
  rw [hnested]
  exact ⟨balanced_nested, by decide⟩

theorem read_rendered_nested : (∀ r ∈ sampleRecords, Renderable r) ∧ (∀ t ∈ some "a<b", IsTrimmed t) ∧
    (∃ body, Renders sampleRecords (some "a<b") body) ∧
    ∀ body, Renders sampleRecords (some "a<b") body → read body = .ok ⟨sampleRecords, some "a<b", none⟩ :=
  have htoken : ∀ t ∈ some "a<b", IsTrimmed t := by decide
  ⟨renderable_sample, htoken, read_rendered renderable_sample htoken⟩

end

end Envelope

end Harvesting
