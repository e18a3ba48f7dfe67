import Harvesting.Markup.Nesting
import Harvesting.Proofs.Markup.Entity
import Harvesting.Proofs.Text.Blank
import Mathlib.Data.List.Basic
import Mathlib.Data.List.Chain
import Mathlib.Data.List.Infix
import Mathlib.Data.List.TakeWhile

/-!
# Markup that is written

Pieces are written one behind the other. The text has the same pieces again if each of them ends where it
is meant to end and no two of them run together.

    List Piece ──flatMap source──▶ text (List Char) ──pieces──▶ the same pieces

* `IsName`, `IsAttributes`, `IsTag`, `IsEndTag` — what stands inside a tag;
* `Piece.Proper`, `Separate` — pieces that can be written, and pieces that do not run together;
* `pieces_flatMap_source` — they are read as they were written;
* `Balanced`, `IsContent` — what an element can hold, as a text and as pieces: every element is closed;
* `unescape_escape` — an escaped text is read as it was.
-/

namespace Harvesting.Markup

variable {cs rest name attrs body g : List Char}

/-! ## Names and attributes -/

/-- Blanks, or nothing. -/
def IsGap (g : List Char) : Prop := ∀ c ∈ g, isSpace c = true

/-- Characters that no name contains. -/
def reserved : List Char := "<>/!?'\"=&".toList

def IsName (name : List Char) : Prop := name ≠ [] ∧ ∀ c ∈ name, isSpace c = false ∧ c ∉ reserved

instance : DecidablePred IsGap := fun g => List.decidableBAll (isSpace · = true) g

instance : DecidablePred IsName := fun name =>
  @instDecidableAnd _ _ inferInstance (List.decidableBAll (fun c => isSpace c = false ∧ c ∉ reserved) name)

/-- What follows the name in a tag: attributes with blanks before and between them. -/
inductive IsAttributes : List Char → Prop where
  | gap {g : List Char} : IsGap g → IsAttributes g
  | cons {g key g₁ g₂ value rest : List Char} {q : Char} : IsGap g → g ≠ [] → IsName key → IsGap g₁ →
      IsGap g₂ → q = '"' ∨ q = '\'' → q ∉ value → IsAttributes rest →
      IsAttributes (g ++ (key ++ (g₁ ++ ('=' :: (g₂ ++ (q :: (value ++ (q :: rest))))))))

/-- The inside of a start tag, or of an empty element. -/
def IsTag (name body : List Char) : Prop := ∃ attrs, IsName name ∧ IsAttributes attrs ∧ body = name ++ attrs

/-- The inside of an end tag. -/
def IsEndTag (name body : List Char) : Prop := ∃ g, IsName name ∧ IsGap g ∧ body = name ++ g

theorem isGap_nil : IsGap [] := fun _ h => nomatch h

theorem IsAttributes.starts (h : IsAttributes attrs) : ∀ c ∈ attrs.head?, isSpace c = true := by
  intro c hc
  cases h with
  | gap hg => exact hg c (List.mem_of_mem_head? hc)
  | @cons g _ _ _ _ _ _ hg hne _ _ _ _ _ _ =>
      rw [List.head?_append_of_ne_nil _ hne] at hc
      exact hg c (List.mem_of_mem_head? hc)

/-- A slash at the end would make the tag an empty element. -/
theorem IsAttributes.ends (h : IsAttributes attrs) : attrs.getLast? ≠ some '/' := by
  induction h with
  | gap hg =>
      intro hlast
      have hspace := hg _ (List.mem_of_getLast? hlast)
      cases hspace
  | @cons g key g₁ g₂ value rest q _ _ _ _ _ hq _ _ ih =>
      have hlast : (g ++ (key ++ (g₁ ++ ('=' :: (g₂ ++ (q :: (value ++ (q :: rest)))))))).getLast? =
          some (rest.getLast?.getD q) := by
        simp [List.getLast?_append, List.getLast?_cons]
      rw [hlast]
      cases hrest : rest.getLast? with
      | none => rcases hq with rfl | rfl <;> simp
      | some c =>
          rw [hrest] at ih
          exact ih

theorem takeWhile_name (hname : IsName name) (hrest : ∀ c ∈ rest.head?, isSpace c = true) :
    (name ++ rest).takeWhile (!isSpace ·) = name := by
  rw [List.takeWhile_append_of_pos (by simpa using fun c hc => (hname.2 c hc).1)]
  cases rest with
  | nil => simp
  | cons c rest => simp [hrest c rfl]

theorem IsTag.name_eq (h : IsTag name body) : Tag.name body = name := by
  obtain ⟨attrs, hname, hattrs, rfl⟩ := h
  exact takeWhile_name hname hattrs.starts

theorem IsEndTag.closedName_eq (h : IsEndTag name body) : Tag.closedName body = name := by
  obtain ⟨g, hname, hg, rfl⟩ := h
  have hkept : ((name ++ g).reverse.dropWhile isSpace).reverse = name := by
    rw [List.reverse_append, List.dropWhile_append_of_pos fun c hc => hg c (List.mem_reverse.1 hc),
      List.dropWhile_eq_self_iff.2, List.reverse_reverse]
    intro hpos
    simpa using (hname.2 _ (List.mem_reverse.1 (List.getElem_mem hpos))).1
  rw [Tag.closedName, hkept]
  exact if_neg hname.1

/-- The first attribute of a tag is found without a look at the others. -/
theorem find?_first {position : List Char → Nat} {key r : List Char} {c : Char} {x : Tag.Attribute}
    (hc : cs.dropWhile isSpace = c :: r) (h : Tag.attributeFrom position c r = .ok x) (hkey : x.key = key) :
    Tag.find? position key cs = .ok (some x.value) := by
  rw [Tag.find?]
  split
  · next hc' => cases hc.symm.trans hc'
  · next c' r' hc' =>
    cases hc.symm.trans hc'
    split
    · next h' => cases h.symm.trans h'
    · next x' h' =>
      cases h.symm.trans h'
      rw [if_pos hkey]

/-! ## Ends of pieces -/

/-- The end of a tag is looked for behind the text. -/
def Passes (cs : List Char) : Prop :=
  ∀ rest, cutTag? none (cs ++ rest) = (cutTag? none rest).map fun (before, after) => (cs ++ before, after)

theorem cutTag?_end (rest : List Char) : cutTag? none ('>' :: rest) = some ([], rest) := rfl

theorem Passes.append {a b : List Char} (ha : Passes a) (hb : Passes b) : Passes (a ++ b) := by
  intro rest
  rw [List.append_assoc, ha, hb, Option.map_map]
  simp [Function.comp_def]

theorem passes_plain (h : ∀ c ∈ cs, c ≠ '>' ∧ c ≠ '"' ∧ c ≠ '\'') : Passes cs := by
  induction cs with
  | nil => exact fun rest => by simp
  | cons c r ih =>
      obtain ⟨hend, hquotes⟩ := h c List.mem_cons_self
      intro rest
      rw [List.cons_append, cutTag?.eq_def]
      simp only [if_neg hend, if_neg (not_or.2 hquotes), ih (fun x hx => h x (List.mem_cons_of_mem c hx)) rest,
        Option.map_map]
      rfl

/-- A mark inside quotes ends no tag. -/
theorem cutTag?_quoted {q : Char} {value : List Char} (hvalue : q ∉ value) (rest : List Char) :
    cutTag? (some q) (value ++ q :: rest) =
      (cutTag? none rest).map fun (before, after) => (value ++ q :: before, after) := by
  induction value with
  | nil =>
      rw [List.nil_append, cutTag?.eq_def]
      simp
  | cons c r ih =>
      rw [List.mem_cons, not_or] at hvalue
      rw [List.cons_append, cutTag?.eq_def]
      simp only [if_neg (Ne.symm hvalue.1), ih hvalue.2, Option.map_map]
      rfl

theorem passes_quoted {q : Char} {value : List Char} (hq : q = '"' ∨ q = '\'') (hvalue : q ∉ value) :
    Passes (q :: (value ++ [q])) := by
  intro rest
  have hend : q ≠ '>' := by rcases hq with rfl | rfl <;> decide
  rw [List.cons_append, List.append_assoc, cutTag?.eq_def]
  simp only [if_neg hend, if_pos hq, List.singleton_append, cutTag?_quoted hvalue, Option.map_map]
  simp [Function.comp_def]

theorem passes_gap (h : IsGap g) : Passes g := by
  apply passes_plain
  intro c hc
  have hspace := h c hc
  refine ⟨?_, ?_, ?_⟩
  all_goals
    rintro rfl
    cases hspace

theorem passes_name (h : IsName name) : Passes name := by
  apply passes_plain
  intro c hc
  have hplain := (h.2 c hc).2
  refine ⟨?_, ?_, ?_⟩
  all_goals
    rintro rfl
    exact hplain (by decide)

theorem IsAttributes.passes (h : IsAttributes attrs) : Passes attrs := by
  induction h with
  | gap hg => exact passes_gap hg
  | @cons g key g₁ g₂ value rest q hg _ hkey hg₁ hg₂ hq hvalue _ ih =>
      have hsign : Passes ['='] := passes_plain (by simp)
      have hwhole := (passes_gap hg).append <| (passes_name hkey).append <| (passes_gap hg₁).append <|
        hsign.append <| (passes_gap hg₂).append <| (passes_quoted hq hvalue).append ih
      simpa using hwhole

theorem IsTag.cutTag?_eq (h : IsTag name body) (rest : List Char) :
    cutTag? none (body ++ '>' :: rest) = some (body, rest) := by
  obtain ⟨attrs, hname, hattrs, rfl⟩ := h
  rw [(passes_name hname).append hattrs.passes, cutTag?_end]
  simp

/-- No end of the mark is a start of it. -/
def Unbordered (mark : List Char) : Prop := ∀ x ∈ mark.tails, x <+: mark → x = [] ∨ x = mark

instance : DecidablePred Unbordered := fun _ => inferInstanceAs (Decidable (∀ _ ∈ _, _))

theorem cutAt?_mark {mark : List Char} (hmark : mark ≠ []) (hborder : Unbordered mark)
    (hcs : ¬ mark <:+: cs) (rest : List Char) : cutAt? mark (cs ++ (mark ++ rest)) = some (cs, rest) := by
  induction cs with
  | nil =>
      obtain ⟨m, ms, rfl⟩ := List.exists_cons_of_ne_nil hmark
      have hprefix : (m :: ms).isPrefixOf (m :: (ms ++ rest)) := List.isPrefixOf_iff_prefix.2 ⟨rest, rfl⟩
      rw [List.nil_append, List.cons_append, cutAt?, if_pos hprefix]
      simp
  | cons c r ih =>
      have hnot : ¬ mark.isPrefixOf (c :: (r ++ (mark ++ rest))) := by
        rw [List.isPrefixOf_iff_prefix, ← List.cons_append]
        intro hprefix
        rcases prefix_append hprefix with ⟨u, -, hu⟩ | ⟨x, hx, hrest⟩
        · exact hcs ⟨[], u, hu.symm⟩
        · -- the mark would start inside the text and end inside the mark behind it
          have hshort : x <+: mark :=
            List.prefix_of_prefix_length_le hrest ⟨rest, rfl⟩ (by simp [hx]; omega)
          rcases hborder x ((List.mem_tails _ _).2 ⟨_, hx.symm⟩) hshort with rfl | rfl
          · exact hcs ⟨[], [], by simp [hx]⟩
          · have hlength := congrArg List.length hx
            simp at hlength
            omega
      have hr : ¬ mark <:+: r := fun h => hcs (h.trans (List.infix_cons (List.infix_refl r)))
      rw [List.cons_append, cutAt?, if_neg hnot, ih hr]
      rfl

theorem delimited_mark {opener mark : List Char} {make : List Char → Piece} {fault : Fault} (hmark : mark ≠ [])
    (hborder : Unbordered mark) (hcs : ¬ mark <:+: cs) (rest : List Char) :
    delimited opener mark make fault (cs ++ (mark ++ rest)) = (make cs, rest) := by
  rw [delimited, cutAt?_mark hmark hborder hcs]

/-! ## Pieces -/

/-- The piece can be written: it is read up to where it ends, and no further. -/
def Piece.Proper : Piece → Prop
  | .text cs => cs ≠ [] ∧ '<' ∉ cs
  | .opening body | .single body => ∃ name, IsTag name body
  | .closing body => ∃ name, IsEndTag name body
  | .comment cs => ¬ "-->".toList <:+: cs
  | .characters cs => ¬ "]]>".toList <:+: cs
  | .instruction cs => cs.head? ≠ some '>' ∧ ¬ "?>".toList <:+: cs
  | .doctype _ _ | .broken _ _ => False

@[simp] theorem source_text (cs : List Char) : (Piece.text cs).source = cs := rfl

@[simp] theorem source_opening (body : List Char) : (Piece.opening body).source = '<' :: (body ++ ['>']) := rfl

@[simp] theorem source_single (body : List Char) :
    (Piece.single body).source = '<' :: (body ++ ['/', '>']) := rfl

@[simp] theorem source_closing (body : List Char) :
    (Piece.closing body).source = '<' :: '/' :: (body ++ ['>']) := rfl

@[simp] theorem source_comment (cs : List Char) :
    (Piece.comment cs).source = '<' :: '!' :: '-' :: '-' :: (cs ++ "-->".toList) := rfl

@[simp] theorem source_characters (cs : List Char) :
    (Piece.characters cs).source = '<' :: '!' :: '[' :: ("CDATA[".toList ++ (cs ++ "]]>".toList)) := rfl

@[simp] theorem source_instruction (cs : List Char) :
    (Piece.instruction cs).source = '<' :: '?' :: (cs ++ "?>".toList) := rfl

theorem IsName.markup_eq (hname : IsName name) (r : List Char) : markup (name ++ r) =
    match cutTag? none (name ++ r) with
    | some (inside, rest) => (.ofTag inside, rest)
    | none => (.broken ('<' :: (name ++ r)) .tagNotClosed, []) := by
  obtain ⟨c, name, rfl⟩ := List.exists_cons_of_ne_nil hname.1
  have hplain := (hname.2 c List.mem_cons_self).2
  apply markup_tag
  all_goals
    rintro rfl
    exact hplain (by decide)

theorem IsTag.markup_opening (h : IsTag name body) (rest : List Char) :
    markup (body ++ '>' :: rest) = (.opening body, rest) := by
  have hcut := h.cutTag?_eq rest
  obtain ⟨attrs, hname, hattrs, rfl⟩ := h
  have hlast : (name ++ attrs).getLast? ≠ some '/' := by
    rw [List.getLast?_append]
    cases hattrs' : attrs.getLast? with
    | some c =>
        have hends := hattrs.ends
        rw [hattrs'] at hends
        simpa using hends
    | none =>
        intro hslash
        exact (hname.2 '/' (List.mem_of_getLast? (by simpa using hslash))).2 (by decide)
  rw [List.append_assoc] at hcut ⊢
  rw [hname.markup_eq, hcut]
  show (Piece.ofTag _, _) = _
  rw [Piece.ofTag, if_neg hlast]

theorem IsTag.markup_single (h : IsTag name body) (rest : List Char) :
    markup (body ++ '/' :: '>' :: rest) = (.single body, rest) := by
  obtain ⟨attrs, hname, hattrs, rfl⟩ := h
  have hslash : Passes ['/'] := passes_plain (by simp)
  have hcut := ((passes_name hname).append hattrs.passes).append hslash ('>' :: rest)
  rw [cutTag?_end] at hcut
  simp only [List.append_assoc, List.singleton_append] at hcut ⊢
  rw [hname.markup_eq, hcut]
  show (Piece.ofTag _, _) = _
  rw [Piece.ofTag, if_pos (by simp [List.getLast?_append])]
  simp

theorem IsEndTag.markup_eq (h : IsEndTag name body) (rest : List Char) :
    markup ('/' :: (body ++ '>' :: rest)) = (.closing body, rest) := by
  obtain ⟨g, hname, hg, rfl⟩ := h
  rw [markup.eq_def]
  simp only
  rw [(passes_name hname).append (passes_gap hg), cutTag?_end]
  simp

/-- Markup is read as it was written, whatever follows it. -/
theorem pieces_markup {p : Piece} (hp : p.Proper) (hmarkup : p.isText = false) (rest : List Char) :
    pieces (p.source ++ rest) = p :: pieces rest := by
  suffices h : ∃ r, p.source ++ rest = '<' :: r ∧ markup r = (p, rest) by
    obtain ⟨r, hr, hmarkup⟩ := h
    rw [hr, pieces_cons, firstPiece_markup, hmarkup]
  cases p with
  | text cs => cases hmarkup
  | opening body =>
      obtain ⟨name, h⟩ := hp
      exact ⟨body ++ '>' :: rest, by simp, h.markup_opening rest⟩
  | single body =>
      obtain ⟨name, h⟩ := hp
      exact ⟨body ++ '/' :: '>' :: rest, by simp, h.markup_single rest⟩
  | closing body =>
      obtain ⟨name, h⟩ := hp
      exact ⟨'/' :: (body ++ '>' :: rest), by simp, h.markup_eq rest⟩
  | comment cs =>
      refine ⟨'!' :: '-' :: '-' :: (cs ++ ("-->".toList ++ rest)), by simp, ?_⟩
      exact delimited_mark (by decide) (by decide) hp rest
  | characters cs =>
      refine ⟨'!' :: '[' :: ("CDATA[".toList ++ (cs ++ ("]]>".toList ++ rest))), by simp, ?_⟩
      exact delimited_mark (by decide) (by decide) hp rest
  | instruction cs =>
      refine ⟨'?' :: (cs ++ ("?>".toList ++ rest)), by simp, ?_⟩
      have hcut : delimited "<?".toList "?>".toList .instruction .instructionNotClosed
          (cs ++ ("?>".toList ++ rest)) = (.instruction cs, rest) :=
        delimited_mark (by decide) (by decide) hp.2 rest
      cases cs with
      | nil => exact hcut
      | cons c cs =>
          rw [← hcut]
          apply markup_instruction
          rintro rfl
          exact hp.1 rfl
  | doctype w cs => exact hp.elim
  | broken cs fault => exact hp.elim

/-- No two pieces of character data run together. -/
def Separate (ps : List Piece) : Prop := ps.IsChain fun p q => p.isText = false ∨ q.isText = false

section

variable {p : Piece} {ps qs content : List Piece}

theorem Separate.around (hps : Separate ps) (hp : p.isText = false) (hqs : Separate qs) :
    Separate (ps ++ p :: qs) := by
  apply List.isChain_append.2 ⟨hps, hqs.cons ?_, ?_⟩
  · intro q _
    exact .inl hp
  · rintro q _ _ ⟨⟩
    exact .inr hp

theorem separate_nil : Separate [] := .nil

theorem separate_single (p : Piece) : Separate [p] := .singleton p

/-- The pieces can stand anywhere among others. -/
def Block (ps : List Piece) : Prop :=
  ∀ before after, Separate before → Separate after → Separate (before ++ (ps ++ after))

theorem block_element {a b : List Char} (h : Separate content) :
    Block (.opening a :: (content ++ [.closing b])) := by
  intro before after hbefore hafter
  have hwhole : Separate (before ++ .opening a :: (content ++ .closing b :: after)) :=
    hbefore.around rfl (h.around rfl hafter)
  simpa using hwhole

theorem Piece.Proper.starts (hp : p.Proper) (hmarkup : p.isText = false) (rest : List Char) :
    StartsMarkup (p.source ++ rest) := by
  cases p with
  | text _ => cases hmarkup
  | doctype _ _ => exact hp.elim
  | broken _ _ => exact hp.elim
  | _ => simp [StartsMarkup]

/-- Pieces are read as they were written. -/
theorem pieces_flatMap_source (hps : ∀ p ∈ ps, p.Proper) (hseparate : Separate ps) :
    pieces (ps.flatMap Piece.source) = ps := by
  induction ps with
  | nil => rw [List.flatMap_nil, pieces]
  | cons p ps ih =>
      obtain ⟨hnext, hrest⟩ := List.isChain_cons.1 hseparate
      have hp := hps p List.mem_cons_self
      have hps' : ∀ p ∈ ps, p.Proper := fun q hq => hps q (List.mem_cons_of_mem p hq)
      rw [List.flatMap_cons]
      cases hmarkup : p.isText with
      | false => rw [pieces_markup hp hmarkup, ih hps' hrest]
      | true =>
          -- character data ends where markup starts
          have hstarts : StartsMarkup (ps.flatMap Piece.source) := by
            cases ps with
            | nil => simp [StartsMarkup]
            | cons q qs =>
                have hq : q.isText = false := (hnext q rfl).resolve_left (by simp [hmarkup])
                exact (hps' q List.mem_cons_self).starts hq _
          cases p with
          | text cs =>
              rw [source_text, pieces_text hp.1 (fun c hc h => hp.2 (h ▸ hc)) hstarts, ih hps' hrest]
          | _ => cases hmarkup

/-! ## Content -/

def Piece.isTag : Piece → Bool
  | .opening _ | .closing _ => true
  | _ => false

/-- Pieces of which every element is closed. -/
inductive IsContent : List Piece → Prop where
  | nil : IsContent []
  | leaf {p : Piece} {ps : List Piece} : p.Proper → p.isTag = false → IsContent ps → IsContent (p :: ps)
  | element {name a b : List Char} {inner ps : List Piece} : IsTag name a → IsEndTag name b →
      IsContent inner → IsContent ps → IsContent (.opening a :: (inner ++ .closing b :: ps))

/--
The text is what an element can hold: characters, empty elements, comments and the like, and elements that
are closed.
-/
inductive Balanced : List Char → Prop where
  | nil : Balanced []
  | char {c : Char} {r : List Char} : c ≠ '<' → Balanced r → Balanced (c :: r)
  | leaf {p : Piece} {r : List Char} : p.Proper → p.isText = false → p.isTag = false → Balanced r →
      Balanced (p.source ++ r)
  | element {name a b inner r : List Char} : IsTag name a → IsEndTag name b → Balanced inner → Balanced r →
      Balanced ('<' :: (a ++ '>' :: (inner ++ '<' :: '/' :: (b ++ '>' :: r))))

theorem IsContent.proper (h : IsContent ps) : ∀ p ∈ ps, p.Proper := by
  induction h with
  | nil => exact fun _ h => nomatch h
  | leaf hp _ _ ih =>
      rintro q (_ | ⟨_, hq⟩)
      · exact hp
      · exact ih q hq
  | element ha hb _ _ ihinner ih =>
      rintro q (_ | ⟨_, hq⟩)
      · exact ⟨_, ha⟩
      · rcases List.mem_append.1 hq with hq | _ | ⟨_, hq⟩
        · exact ihinner q hq
        · exact ⟨_, hb⟩
        · exact ih q hq

/-- A character in front joins the character data that it meets. -/
theorem IsContent.exists_char {c : Char} (hc : c ≠ '<') (h : IsContent ps) (hseparate : Separate ps) :
    ∃ qs, IsContent qs ∧ Separate qs ∧ qs.flatMap Piece.source = c :: ps.flatMap Piece.source := by
  have hproper (w : List Char) (hw : '<' ∉ w) : (Piece.text (c :: w)).Proper :=
    ⟨List.cons_ne_nil c w, by simp [hw, Ne.symm hc]⟩
  have happart (hnext : ∀ q ∈ ps.head?, q.isText = false) :
      ∃ qs, IsContent qs ∧ Separate qs ∧ qs.flatMap Piece.source = c :: ps.flatMap Piece.source :=
    ⟨.text [c] :: ps, .leaf (hproper [] List.not_mem_nil) rfl h, hseparate.cons fun q hq => .inr (hnext q hq),
      by simp⟩
  cases h with
  | nil => exact happart fun _ h => nomatch h
  | element _ _ _ _ =>
      apply happart
      rintro _ ⟨⟩
      rfl
  | @leaf p ps hp htag hps =>
      cases htext : p.isText with
      | false =>
          apply happart
          rintro _ ⟨⟩
          exact htext
      | true =>
          cases p with
          | text w =>
              refine ⟨.text (c :: w) :: ps, .leaf (hproper w hp.2) rfl hps, ?_, by simp⟩
              exact hseparate.tail.cons (List.isChain_cons.1 hseparate).1
          | _ => cases htext

theorem Balanced.exists_content (h : Balanced cs) :
    ∃ ps, IsContent ps ∧ Separate ps ∧ ps.flatMap Piece.source = cs := by
  induction h with
  | nil => exact ⟨[], .nil, separate_nil, rfl⟩
  | char hc _ ih =>
      obtain ⟨ps, hps, hseparate, rfl⟩ := ih
      exact hps.exists_char hc hseparate
  | @leaf p r hp htext htag _ ih =>
      obtain ⟨ps, hps, hseparate, rfl⟩ := ih
      exact ⟨p :: ps, .leaf hp htag hps, separate_nil.around htext hseparate, by simp⟩
  | @element name a b inner r ha hb _ _ ihinner ih =>
      obtain ⟨inside, hinside, hseparate, rfl⟩ := ihinner
      obtain ⟨ps, hps, hseparate', rfl⟩ := ih
      refine ⟨.opening a :: (inside ++ .closing b :: ps), .element ha hb hinside hps, ?_, by simp⟩
      exact separate_nil.around rfl (hseparate.around rfl hseparate')

theorem Balanced.append {a b : List Char} (ha : Balanced a) (hb : Balanced b) : Balanced (a ++ b) := by
  induction ha with
  | nil => exact hb
  | char hc _ ih => exact .char hc ih
  | leaf hp htext htag _ ih =>
      rw [List.append_assoc]
      exact .leaf hp htext htag ih
  | element ha hb' hinner _ _ ih =>
      have hwhole := Balanced.element ha hb' hinner ih
      simpa using hwhole

theorem balanced_text (h : '<' ∉ cs) : Balanced cs := by
  induction cs with
  | nil => exact .nil
  | cons c r ih =>
      rw [List.mem_cons, not_or] at h
      exact .char (Ne.symm h.1) (ih h.2)

theorem notMem_gap (h : IsGap g) : '<' ∉ g := by
  intro hmem
  cases h '<' hmem

theorem nest_leaf (hp : p.Proper) (htag : p.isTag = false) (opened : List (List Char)) :
    nest opened p = .ok opened := by
  cases p with
  | opening _ | closing _ => cases htag
  | broken _ _ => exact hp.elim
  | _ => rfl

theorem IsTag.nest_eq (h : IsTag name body) (opened : List (List Char)) :
    nest opened (.opening body) = .ok (name :: opened) := by
  show Except.ok (Tag.name body :: opened) = _
  rw [h.name_eq]

theorem IsEndTag.nest_eq (h : IsEndTag name body) (opened : List (List Char)) :
    nest (name :: opened) (.closing body) = .ok opened := by
  show (if Tag.closedName body = name then _ else _) = _
  rw [if_pos h.closedName_eq]

end

/-! ## Values -/

section

variable {total offset : Nat}

theorem unescapeFrom_named {entity r : List Char} {c : Char} (hentity : ∀ x ∈ entity, x ≠ '&' ∧ x ≠ ';')
    (hc : ∀ n, resolve n entity = .ok c) : unescapeFrom total offset ('&' :: (entity ++ ';' :: r)) = do
      return c :: (← unescapeFrom total (offset + 2 + Utf8.length entity) r) := by
  have hmark := untilMark_entity (r := r) hentity
  rw [unescapeFrom_entity (congrArg Prod.snd hmark), hmark, hc]
  rfl

/-- An escaped text is read as it was. -/
theorem unescapeFrom_escape (cs : List Char) : unescapeFrom total offset (escape cs) = .ok cs := by
  induction cs generalizing offset with
  | nil => rw [escape, List.flatMap_nil, unescapeFrom]
  | cons c r ih =>
      have hcons : escape (c :: r) = escapeChar c ++ escape r := List.flatMap_cons
      rw [hcons, escapeChar]
      split
      · next hc =>
        show unescapeFrom total offset ('&' :: ("amp".toList ++ ';' :: escape r)) = _
        rw [unescapeFrom_named (c := '&') (by simp) (fun _ => rfl), ih, hc]
        rfl
      · split
        · next hc =>
          show unescapeFrom total offset ('&' :: ("lt".toList ++ ';' :: escape r)) = _
          rw [unescapeFrom_named (c := '<') (by simp) (fun _ => rfl), ih, hc]
          rfl
        · split
          · next hc =>
            show unescapeFrom total offset ('&' :: ("gt".toList ++ ';' :: escape r)) = _
            rw [unescapeFrom_named (c := '>') (by simp) (fun _ => rfl), ih, hc]
            rfl
          · next hand _ _ =>
            rw [List.singleton_append, unescapeFrom_char hand, ih]
            rfl

end

theorem unescape_escape (cs : List Char) : unescape (escape cs) = .ok cs := unescapeFrom_escape cs

theorem notMem_escape (cs : List Char) : '<' ∉ escape cs := by
  rw [escape, List.mem_flatMap]
  rintro ⟨c, -, hc⟩
  rw [escapeChar] at hc
  split at hc
  · simp at hc
  · split at hc
    · simp at hc
    · next hopen =>
      split at hc
      · simp at hc
      · exact hopen (List.mem_singleton.1 hc).symm

theorem escape_append (a b : List Char) : escape (a ++ b) = escape a ++ escape b := List.flatMap_append

/-- An escaped character starts with itself or with the mark of an entity, and ends likewise. -/
theorem escapeChar_ends (c : Char) : ∃ x y, (escapeChar c).head? = some x ∧ (escapeChar c).getLast? = some y ∧
    (x = '&' ∨ x = c) ∧ (y = ';' ∨ y = c) := by
  rw [escapeChar]
  split
  · exact ⟨'&', ';', rfl, rfl, .inl rfl, .inl rfl⟩
  · split
    · exact ⟨'&', ';', rfl, rfl, .inl rfl, .inl rfl⟩
    · split
      · exact ⟨'&', ';', rfl, rfl, .inl rfl, .inl rfl⟩
      · exact ⟨c, c, rfl, rfl, .inr rfl, .inr rfl⟩

theorem escape_ne_nil (h : cs ≠ []) : escape cs ≠ [] := by
  obtain ⟨c, r, rfl⟩ := List.exists_cons_of_ne_nil h
  obtain ⟨x, -, hx, -⟩ := escapeChar_ends c
  intro hnil
  have hchar : escapeChar c = [] := (List.append_eq_nil_iff.1 hnil).1
  rw [hchar] at hx
  cases hx

/-- The blanks of markup are blank. -/
theorem isBlank_of_isSpace {c : Char} (h : isSpace c = true) : Text.isBlank c = true := by
  simp only [isSpace, Bool.or_eq_true, decide_eq_true_eq] at h
  rcases h with ((rfl | rfl) | rfl) | rfl <;> rfl

/-- A text without blanks at its ends has none there when it is escaped. -/
theorem strip_escape (h : Text.trim cs = cs) : strip (escape cs) = escape cs := by
  obtain ⟨hfirst, hlast⟩ := Text.trim_eq_self_iff.1 h
  have hsolid {c x : Char} {mark : Char} (hmark : isSpace mark = false) (hc : Text.isBlank c = false)
      (hx : x = mark ∨ x = c) : isSpace x = false := by
    rcases hx with rfl | rfl
    · exact hmark
    · rw [Bool.eq_false_iff] at hc ⊢
      exact fun hspace => hc (isBlank_of_isSpace hspace)
  apply Text.dropWhile_ends
  · cases cs with
    | nil => exact fun _ h => nomatch h
    | cons c r =>
        obtain ⟨x, -, hx, -, hxc, -⟩ := escapeChar_ends c
        have hhead : (escape (c :: r)).head? = some x := by
          rw [escape, List.flatMap_cons, List.head?_append, hx]
          rfl
        rw [hhead]
        rintro _ ⟨⟩
        exact hsolid rfl (hfirst c rfl) hxc
  · cases List.eq_nil_or_concat cs with
    | inl hnil =>
        rw [hnil]
        exact fun _ h => nomatch h
    | inr hconcat =>
        obtain ⟨r, c, rfl⟩ := hconcat
        obtain ⟨-, y, -, hy, -, hyc⟩ := escapeChar_ends c
        have hend : (escape (r ++ [c])).getLast? = some y := by
          rw [escape_append, List.getLast?_append, escape, List.flatMap_singleton, hy]
          rfl
        rw [List.concat_eq_append, hend]
        rintro _ ⟨⟩
        exact hsolid rfl (hlast c (by simp)) hyc

end Harvesting.Markup
