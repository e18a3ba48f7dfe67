import Harvesting.Markup.Piece

/-!
# Markup that is cut off

Where a piece of markup ends is decided by the piece alone, not by what follows it. So a text that is
cut off has the pieces of the whole text up to the cut. Of the piece at the cut, if it is not text, a
broken piece is left.

    whole text   ──pieces──▶  before ++ after
    cut off text ──pieces──▶  before ++ stump

* `CutsAt`, `TakesAt` — cutting off at a delimiter, and taking a piece, do not look beyond the piece;
* `takesAt_markup` — this is so of every kind of markup;
* `Stump` — what is left of the pieces from the cut on;
* `Cut`, `cut_pieces` — the pieces of a text that is cut off.
-/

namespace Harvesting.Markup

/-! ## Delimiters -/

section

variable {cut cut' : List Char → Option (List Char × List Char)} {mark cs r : List Char} {c : Char}

/-- The cut through a text is behind a mark, and it stays there whatever follows the mark. -/
def CutsAt (cut : List Char → Option (List Char × List Char)) (mark cs : List Char) : Prop :=
  ∀ before after, cut cs = some (before, after) →
    cs = before ++ mark ++ after ∧ ∀ rest, cut (before ++ mark ++ rest) = some (before, rest)

theorem CutsAt.keep (hcut : ∀ x, cut (c :: x) = (cut' x).map fun (before, after) => (c :: before, after))
    (h : CutsAt cut' mark r) : CutsAt cut mark (c :: r) := by
  intro before after hsome
  rw [hcut] at hsome
  obtain ⟨⟨b, a⟩, hr, heq⟩ := Option.map_eq_some_iff.1 hsome
  cases heq
  obtain ⟨hsource, hrest⟩ := h _ _ hr
  refine ⟨by rw [hsource]; rfl, ?_⟩
  intro rest
  show cut (c :: (b ++ mark ++ rest)) = _
  rw [hcut, hrest]
  rfl

theorem CutsAt.stop (hcut : ∀ x, cut (c :: x) = some ([], x)) : CutsAt cut [c] (c :: r) := by
  intro before after hsome
  rw [hcut] at hsome
  cases hsome
  exact ⟨rfl, hcut⟩

theorem cutsAt_cutAt? (hmark : mark ≠ []) (cs : List Char) : CutsAt (cutAt? mark) mark cs := by
  induction cs with
  | nil => exact fun _ _ h => nomatch h
  | cons c r ih =>
      intro before after h
      rw [cutAt?] at h
      split at h
      · next hprefix =>
        obtain ⟨u, hu⟩ := List.isPrefixOf_iff_prefix.1 hprefix
        cases h
        refine ⟨by simp [← hu], ?_⟩
        intro rest
        cases mark with
        | nil => exact absurd rfl hmark
        | cons m ms =>
            have hmark' : (m :: ms).isPrefixOf (m :: (ms ++ rest)) :=
              List.isPrefixOf_iff_prefix.2 ⟨rest, rfl⟩
            show cutAt? (m :: ms) (m :: (ms ++ rest)) = _
            rw [cutAt?, if_pos hmark']
            simp
      · next hprefix =>
        obtain ⟨⟨b, a⟩, hr, heq⟩ := Option.map_eq_some_iff.1 h
        cases heq
        obtain ⟨hsource, hrest⟩ := ih _ _ hr
        refine ⟨by rw [hsource]; rfl, ?_⟩
        intro rest
        -- a mark at the first character would reach no further than the mark that was found
        have hnot : ¬ mark.isPrefixOf (c :: (b ++ mark ++ rest)) := by
          intro hmark'
          have hshort : mark <+: c :: (b ++ mark) :=
            List.prefix_of_prefix_length_le (List.isPrefixOf_iff_prefix.1 hmark') ⟨rest, by simp⟩
              (by simp; omega)
          apply hprefix
          rw [List.isPrefixOf_iff_prefix, hsource]
          exact hshort.trans ⟨after, rfl⟩
        show cutAt? mark (c :: (b ++ mark ++ rest)) = _
        rw [cutAt?, if_neg hnot, hrest]
        rfl

theorem cutsAt_cutTag? (quote : Option Char) (cs : List Char) : CutsAt (cutTag? quote) ['>'] cs := by
  induction cs generalizing quote with
  | nil => exact fun _ _ h => nomatch h
  | cons c r ih =>
      cases quote with
      | some q => exact .keep (fun x => by rw [cutTag?.eq_def]) (ih (if c = q then none else some q))
      | none =>
          by_cases hend : c = '>'
          · subst hend
            exact .stop fun x => by rw [cutTag?.eq_def]; rfl
          · by_cases hquote : c = '"' ∨ c = '\''
            · apply CutsAt.keep _ (ih (some c))
              intro x
              rw [cutTag?.eq_def]
              simp only [if_neg hend, if_pos hquote]
            · apply CutsAt.keep _ (ih none)
              intro x
              rw [cutTag?.eq_def]
              simp only [if_neg hend, if_neg hquote]

theorem cutsAt_cutBalanced? (depth : Nat) (cs : List Char) : CutsAt (cutBalanced? depth) ['>'] cs := by
  induction cs generalizing depth with
  | nil => exact fun _ _ h => nomatch h
  | cons c r ih =>
      by_cases hopen : c = '<'
      · apply CutsAt.keep _ (ih (depth + 1))
        intro x
        rw [cutBalanced?.eq_def]
        simp only [if_pos hopen]
      · by_cases hclose : c = '>'
        · subst hclose
          by_cases hdepth : depth = 0
          · -- the mark that was opened last is closed
            apply CutsAt.stop
            intro x
            rw [cutBalanced?.eq_def]
            simp [hdepth]
          · apply CutsAt.keep _ (ih (depth - 1))
            intro x
            rw [cutBalanced?.eq_def]
            simp [hdepth]
        · apply CutsAt.keep _ (ih depth)
          intro x
          rw [cutBalanced?.eq_def]
          simp only [if_neg hopen, if_neg hclose]

end

/-! ## The first piece -/

/-- The piece says what is wrong with a text. -/
def Piece.isBroken : Piece → Bool
  | .broken _ _ => true
  | _ => false

section

variable {take : List Char → Piece × List Char} {opener cs after : List Char} {piece : Piece}

/-- The piece that is taken off a text behind `opener` stays the same whatever follows it. -/
def TakesAt (take : List Char → Piece × List Char) (opener cs : List Char) : Prop :=
  ∀ piece after, take cs = (piece, after) → piece.isBroken = false →
    ∃ tail, piece.source = opener ++ tail ∧ cs = tail ++ after ∧ ∀ rest, take (tail ++ rest) = (piece, rest)

/-- Nothing can be taken off the empty text. -/
theorem TakesAt.tail_ne_nil {tail : List Char} (hempty : (take []).1.isBroken = true)
    (hrest : ∀ rest, take (tail ++ rest) = (piece, rest)) (hsound : piece.isBroken = false) : tail ≠ [] := by
  rintro rfl
  have htake := hrest []
  rw [List.append_nil] at htake
  rw [htake, hsound] at hempty
  cases hempty

theorem takesAt_delimited {mark : List Char} {make : List Char → Piece} {fault : Fault} (hmark : mark ≠ [])
    (hmake : ∀ b, (make b).source = opener ++ (b ++ mark)) (cs : List Char) :
    TakesAt (delimited opener mark make fault) opener cs := by
  intro piece after htake hsound
  rw [delimited] at htake
  split at htake
  · next hcut =>
    cases htake
    obtain ⟨hsource, hrest⟩ := cutsAt_cutAt? hmark cs _ _ hcut
    refine ⟨_, hmake _, hsource, ?_⟩
    intro rest
    rw [delimited, hrest]
  · cases htake
    cases hsound

theorem isBroken_misspelt (opener mark : List Char) (fault : Fault) (cs : List Char) :
    (misspelt opener mark fault cs).1.isBroken = true := by
  rw [misspelt, delimited]
  split <;> rfl

theorem takesAt_doctypePiece (cs : List Char) : TakesAt doctypePiece "<!".toList cs := by
  intro piece after htake hsound
  rw [doctypePiece] at htake
  split at htake
  · cases htake
    cases hsound
  · next body rest hcut =>
    obtain ⟨hsource, hrest⟩ := cutsAt_cutBalanced? 0 cs _ _ hcut
    simp only at htake
    split at htake
    · cases htake
      cases hsound
    · next hword =>
      split at htake
      · cases htake
        cases hsound
      · next hcontent =>
        cases htake
        refine ⟨body ++ ['>'], ?_, hsource, ?_⟩
        · show "<!".toList ++ body.take doctypeWord.length ++ body.drop doctypeWord.length ++ ['>'] = _
          rw [List.append_assoc "<!".toList, List.take_append_drop, List.append_assoc]
        · intro rest
          rw [doctypePiece, hrest]
          simp only [if_neg hword, if_neg hcontent]

theorem takesAt_declaration (cs : List Char) : TakesAt declaration "<!".toList cs := by
  intro piece after htake hsound
  rw [declaration.eq_def] at htake
  split at htake
  · next r =>
    obtain ⟨tail, hsource, rfl, hrest⟩ :=
      takesAt_delimited (by simp) (fun _ => List.append_assoc _ _ _) r piece after htake hsound
    exact ⟨'-' :: '-' :: tail, by simp [hsource], rfl, hrest⟩
  · next r _ =>
    have hbroken := isBroken_misspelt "<!-".toList "-->".toList .commentNotClosed r
    rw [htake, hsound] at hbroken
    cases hbroken
  · next r =>
    split at htake
    · next hprefix =>
      obtain ⟨r', rfl⟩ := List.isPrefixOf_iff_prefix.1 hprefix
      obtain ⟨tail, hsource, htail, hrest⟩ :=
        takesAt_delimited (by simp) (fun _ => List.append_assoc _ _ _) _ piece after htake hsound
      have hdrop (x : List Char) : ("CDATA[".toList ++ x).drop 6 = x := by simp
      refine ⟨'[' :: ("CDATA[".toList ++ tail), by simp [hsource], ?_, ?_⟩
      · rw [hdrop] at htail
        rw [htail]
        simp
      · intro rest
        rw [← hrest rest, List.cons_append, List.append_assoc, declaration.eq_def]
        simp only
        rw [if_pos (List.isPrefixOf_iff_prefix.2 ⟨_, rfl⟩), hdrop]
    · have hbroken := isBroken_misspelt "<![".toList "]]>".toList .charactersNotClosed r
      rw [htake, hsound] at hbroken
      cases hbroken
  · next c r _ _ _ =>
    split at htake
    · next hletter =>
      obtain ⟨tail, hsource, htail, hrest⟩ := takesAt_doctypePiece _ piece after htake hsound
      refine ⟨tail, hsource, htail, ?_⟩
      intro rest
      -- the piece is not empty, so the letter that decided is in it
      obtain ⟨d, tail, rfl⟩ := List.exists_cons_of_ne_nil (TakesAt.tail_ne_nil rfl hrest hsound)
      obtain ⟨rfl, -⟩ := List.cons.inj htail
      rw [← hrest rest]
      rcases hletter with rfl | rfl <;> rfl
    · cases htake
      cases hsound
  · cases htake
    cases hsound

theorem source_ofTag (inside : List Char) : (Piece.ofTag inside).source = ['<'] ++ (inside ++ ['>']) := by
  rw [Piece.ofTag]
  split
  · next hslash =>
    obtain ⟨body, rfl⟩ := List.getLast?_eq_some_iff.1 hslash
    show '<' :: (body ++ ['/']).dropLast ++ ['/', '>'] = _
    simp
  · rfl

theorem markup_instruction {c : Char} {r : List Char} (h : c ≠ '>') : markup ('?' :: c :: r) =
    delimited "<?".toList "?>".toList .instruction .instructionNotClosed (c :: r) := by
  apply markup.eq_3
  intro r' hr
  exact h (List.cons.inj hr).1

theorem markup_tag {c : Char} {r : List Char} (hdeclaration : c ≠ '!') (hinstruction : c ≠ '?')
    (hend : c ≠ '/') : markup (c :: r) = match cutTag? none (c :: r) with
      | some (inside, rest) => (.ofTag inside, rest)
      | none => (.broken ('<' :: c :: r) .tagNotClosed, []) := by
  apply markup.eq_5
  · intro r' hr
    exact hdeclaration (List.cons.inj hr).1
  · intro r' hr
    exact hinstruction (List.cons.inj hr).1
  · intro r' hr
    exact hinstruction (List.cons.inj hr).1
  · intro r' hr
    exact hend (List.cons.inj hr).1

/-- Markup is no character data. -/
def Piece.isText : Piece → Bool
  | .text _ => true
  | _ => false

theorem isText_delimited {mark : List Char} {make : List Char → Piece} {fault : Fault}
    (hmake : ∀ b, (make b).isText = false) (r : List Char) :
    (delimited opener mark make fault r).1.isText = false := by
  rw [delimited]
  split
  · exact hmake _
  · rfl

theorem isText_declaration (r : List Char) : (declaration r).1.isText = false := by
  rw [declaration.eq_def]
  split
  · exact isText_delimited (fun _ => rfl) _
  · exact isText_delimited (fun _ => rfl) _
  · split
    · exact isText_delimited (fun _ => rfl) _
    · exact isText_delimited (fun _ => rfl) _
  · split
    · rw [doctypePiece]
      split
      · rfl
      · simp only
        split
        · rfl
        · split <;> rfl
    · rfl
  · rfl

theorem isText_markup (r : List Char) : (markup r).1.isText = false := by
  rw [markup.eq_def]
  split
  · exact isText_declaration _
  · rfl
  · exact isText_delimited (fun _ => rfl) _
  · split <;> rfl
  · split
    · rw [Piece.ofTag]
      split <;> rfl
    · rfl

theorem takesAt_markup (cs : List Char) : TakesAt markup ['<'] cs := by
  intro piece after htake hsound
  rw [markup.eq_def] at htake
  split at htake
  · next r =>
    obtain ⟨tail, hsource, rfl, hrest⟩ := takesAt_declaration r piece after htake hsound
    exact ⟨'!' :: tail, by simp [hsource], rfl, hrest⟩
  · cases htake
    cases hsound
  · next r hr =>
    obtain ⟨tail, hsource, rfl, hrest⟩ :=
      takesAt_delimited (by simp) (fun _ => List.append_assoc _ _ _) r piece after htake hsound
    refine ⟨'?' :: tail, by simp [hsource], rfl, ?_⟩
    intro rest
    obtain ⟨c, tail, rfl⟩ := List.exists_cons_of_ne_nil (TakesAt.tail_ne_nil rfl hrest hsound)
    have hc : c ≠ '>' := by
      rintro rfl
      exact hr _ rfl
    exact (markup_instruction hc).trans (hrest rest)
  · next r =>
    split at htake
    · next hcut =>
      cases htake
      obtain ⟨rfl, hrest⟩ := cutsAt_cutTag? none r _ _ hcut
      refine ⟨'/' :: (_ ++ ['>']), rfl, rfl, ?_⟩
      intro rest
      rw [List.cons_append, markup.eq_def]
      simp only [hrest]
    · cases htake
      cases hsound
  · next r hdeclaration _ hinstruction hend =>
    split at htake
    · next inside after hcut =>
      cases htake
      obtain ⟨rfl, hrest⟩ := cutsAt_cutTag? none _ _ _ hcut
      refine ⟨inside ++ ['>'], source_ofTag inside, rfl, ?_⟩
      intro rest
      cases inside with
      | nil => rfl
      | cons c inside =>
          -- the tag starts with none of the characters that make it something else
          have hopen : c ≠ '!' ∧ c ≠ '?' ∧ c ≠ '/' := by
            refine ⟨?_, ?_, ?_⟩
            · rintro rfl
              exact hdeclaration _ rfl
            · rintro rfl
              exact hinstruction _ rfl
            · rintro rfl
              exact hend _ rfl
          show markup (c :: (inside ++ ['>'] ++ rest)) = _
          rw [markup_tag hopen.1 hopen.2.1 hopen.2.2]
          simp only [← List.cons_append, hrest]
    · cases htake
      cases hsound

end

/-! ## All pieces -/

/-- What is left of the pieces from a cut on: nothing, a shorter text, or a piece that is not closed. -/
inductive Stump : List Piece → List Char → List Piece → Prop where
  | none {after : List Piece} : Stump after [] []
  | text {cs part u : List Char} {after : List Piece} :
      part ≠ [] → u ≠ [] → cs = part ++ u → Stump (.text cs :: after) part [.text part]
  | markup {p torn : Piece} {part u : List Char} {after more : List Piece} :
      p.isText = false → part ≠ [] → u ≠ [] → p.source = part ++ u → torn.isBroken = true →
        Stump (p :: after) part (torn :: more)

theorem pieces_cons (c : Char) (r : List Char) :
    pieces (c :: r) = (firstPiece c r).1 :: pieces (firstPiece c r).2 := by
  rw [pieces]

theorem firstPiece_markup (r : List Char) : firstPiece '<' r = markup r := if_pos rfl

theorem firstPiece_text {c : Char} (h : c ≠ '<') (r : List Char) :
    firstPiece c r = (.text (c :: r.takeWhile (· ≠ '<')), r.dropWhile (· ≠ '<')) := if_neg h

/-- A text that is cut off ends within the first part of it, or behind that part. -/
theorem prefix_append {pre a b : List Char} (h : pre <+: a ++ b) :
    (∃ u, u ≠ [] ∧ a = pre ++ u) ∨ ∃ pre', pre = a ++ pre' ∧ pre' <+: b := by
  obtain ⟨u, hu⟩ := h
  rcases List.append_eq_append_iff.1 hu with ⟨v, rfl, rfl⟩ | ⟨v, rfl, rfl⟩
  · cases v with
    | nil => exact .inr ⟨[], by simp, List.nil_prefix⟩
    | cons x v => exact .inl ⟨x :: v, List.cons_ne_nil x v, rfl⟩
  · exact .inr ⟨v, rfl, u, rfl⟩

/-- Markup that is cut off is not closed. -/
theorem isBroken_of_cut {pre u tail : List Char} {p : Piece} (hu : u ≠ []) (htail : tail = pre ++ u)
    (hrest : ∀ rest, markup (tail ++ rest) = (p, rest)) : (markup pre).1.isBroken = true := by
  cases hpre : markup pre with
  | mk q after =>
      cases hsound : q.isBroken with
      | true => rfl
      | false =>
          -- a piece that is closed before the cut would also be the piece of the whole text
          obtain ⟨tail', -, rfl, hrest'⟩ := takesAt_markup pre q after hpre hsound
          have hshort := hrest' (after ++ u)
          rw [← List.append_assoc, ← htail, ← List.append_nil tail, hrest []] at hshort
          exact absurd (List.append_eq_nil_iff.1 (Prod.mk.inj hshort).2.symm).2 hu

/-- The pieces `qs` of what is left of the pieces `ps` of a text that is cut off behind `pre`. -/
structure Cut (ps : List Piece) (pre : List Char) (qs before after : List Piece) (part : List Char)
    (stump : List Piece) : Prop where
  whole : ps = before ++ after
  source : pre = before.flatMap Piece.source ++ part
  pieces : qs = before ++ stump
  stump : Stump after part stump

theorem Cut.next {ps qs before after stump : List Piece} {pre part : List Char} (p : Piece)
    (h : Cut ps pre qs before after part stump) :
    Cut (p :: ps) (p.source ++ pre) (p :: qs) (p :: before) after part stump where
  whole := congrArg (p :: ·) h.whole
  source := by rw [h.source, List.flatMap_cons, List.append_assoc]
  pieces := congrArg (p :: ·) h.pieces
  stump := h.stump

section

variable {w rest pre r : List Char}

/-- The text is empty or starts with markup. -/
def StartsMarkup (cs : List Char) : Prop := ∀ c ∈ cs.head?, c = '<'

theorem StartsMarkup.cut (h : StartsMarkup rest) (hpre : pre <+: rest) : StartsMarkup pre := by
  obtain ⟨u, rfl⟩ := hpre
  cases pre with
  | nil => exact fun c hc => nomatch hc
  | cons c pre => exact h

theorem starts_dropWhile (cs : List Char) : StartsMarkup (cs.dropWhile (· ≠ '<')) := by
  intro c hc
  have hhead := List.head?_dropWhile_not (· ≠ '<') cs
  rw [Option.mem_def.1 hc] at hhead
  simpa using hhead

/-- Character data is one piece. -/
theorem pieces_text (hne : w ≠ []) (hw : ∀ c ∈ w, c ≠ '<') (hrest : StartsMarkup rest) :
    pieces (w ++ rest) = .text w :: pieces rest := by
  have hstop : rest.takeWhile (· ≠ '<') = [] ∧ rest.dropWhile (· ≠ '<') = rest := by
    cases rest with
    | nil => exact ⟨rfl, rfl⟩
    | cons c rest =>
        have hc : c = '<' := hrest c rfl
        simp [hc]
  obtain ⟨c, w, rfl⟩ := List.exists_cons_of_ne_nil hne
  have hall : ∀ x ∈ w, decide (x ≠ '<') = true := by
    intro x hx
    exact decide_eq_true (hw x (List.mem_cons_of_mem c hx))
  rw [List.cons_append, pieces_cons, firstPiece_text (hw c List.mem_cons_self),
    List.takeWhile_append_of_pos hall, List.dropWhile_append_of_pos hall, hstop.1, hstop.2, List.append_nil]

theorem cut_text (hne : w ≠ []) (hw : ∀ c ∈ w, c ≠ '<') (hrest : StartsMarkup rest) (hpre : pre <+: w ++ rest)
    (hpre_ne : pre ≠ []) (ih : ∀ {pre}, pre <+: rest →
      ∃ before after part stump, Cut (pieces rest) pre (pieces pre) before after part stump) :
    ∃ before after part stump, Cut (pieces (w ++ rest)) pre (pieces pre) before after part stump := by
  rw [pieces_text hne hw hrest]
  rcases prefix_append hpre with ⟨u, hu, htext⟩ | ⟨pre', rfl, hpre'⟩
  · -- the cut is inside the text, and what is left of it is one piece again
    have hpart : pieces (pre ++ []) = .text pre :: pieces [] :=
      pieces_text hpre_ne (fun c hc => hw c (htext ▸ List.mem_append_left u hc)) fun c hc => nomatch hc
    rw [List.append_nil, pieces] at hpart
    exact ⟨[], _, pre, _, rfl, rfl, hpart, .text hpre_ne hu htext⟩
  · rw [pieces_text hne hw (hrest.cut hpre')]
    obtain ⟨before, after, part, stump, hcut⟩ := ih hpre'
    exact ⟨_, _, _, _, hcut.next (.text w)⟩

theorem cut_markup (hsound : (markup r).1.isBroken = false) (hpre : pre <+: r)
    (ih : ∀ {pre}, pre <+: (markup r).2 →
      ∃ before after part stump, Cut (pieces (markup r).2) pre (pieces pre) before after part stump) :
    ∃ before after part stump, Cut (pieces ('<' :: r)) ('<' :: pre) (pieces ('<' :: pre)) before after part stump := by
  rw [pieces_cons, firstPiece_markup]
  cases hr : markup r with
  | mk p rest =>
      rw [hr] at hsound ih
      obtain ⟨tail, hsource, rfl, hrest⟩ := takesAt_markup r p rest hr hsound
      rcases prefix_append hpre with ⟨u, hu, htail⟩ | ⟨pre', rfl, hpre'⟩
      · -- the cut is inside the markup
        have htext : p.isText = false := by rw [← isText_markup (tail ++ rest), hr]
        refine ⟨[], _, '<' :: pre, _, rfl, rfl, pieces_cons '<' pre, .markup htext (List.cons_ne_nil '<' pre) hu ?_ ?_⟩
        · rw [hsource, htail]
          rfl
        · rw [firstPiece_markup]
          exact isBroken_of_cut hu htail hrest
      · obtain ⟨before, after, part, stump, hcut⟩ := ih hpre'
        have hpieces : pieces ('<' :: (tail ++ pre')) = p :: pieces pre' := by
          rw [pieces_cons, firstPiece_markup, hrest]
        have hpre : '<' :: (tail ++ pre') = p.source ++ pre' := by rw [hsource]; rfl
        rw [hpieces, hpre]
        exact ⟨_, _, _, _, hcut.next p⟩

end

/-- A text that is cut off has the pieces of the whole text up to the cut. -/
theorem cut_pieces {cs pre : List Char} (hpre : pre <+: cs) (hsound : ∀ p ∈ pieces cs, p.isBroken = false) :
    ∃ before after part stump, Cut (pieces cs) pre (pieces pre) before after part stump := by
  -- piece by piece, as `pieces` goes; the cut is in the first piece or behind it
  induction cs using pieces.induct generalizing pre with
  | case1 =>
      obtain rfl := List.prefix_nil.1 hpre
      exact ⟨[], _, [], [], rfl, rfl, by rw [pieces]; rfl, .none⟩
  | case2 c r ih =>
      rcases pre with _ | ⟨c', pre⟩
      · exact ⟨[], _, [], [], rfl, rfl, by rw [pieces]; rfl, .none⟩
      obtain ⟨rfl, hpre'⟩ := List.cons_prefix_cons.1 hpre
      rw [pieces_cons] at hsound
      have ih' {pre : List Char} (hpre : pre <+: (firstPiece c' r).2) :=
        ih hpre fun p hp => hsound p (List.mem_cons_of_mem _ hp)
      have hfirst := hsound _ List.mem_cons_self
      by_cases hopen : c' = '<'
      · subst hopen
        rw [firstPiece_markup] at ih' hfirst
        exact cut_markup hfirst hpre' ih'
      · rw [firstPiece_text hopen] at ih'
        have hsplit : c' :: r = (c' :: r.takeWhile (· ≠ '<')) ++ r.dropWhile (· ≠ '<') := by
          rw [List.cons_append, List.takeWhile_append_dropWhile]
        have hw : ∀ x ∈ c' :: r.takeWhile (· ≠ '<'), x ≠ '<' := by
          intro x hx
          rcases List.mem_cons.1 hx with rfl | hx
          · exact hopen
          · simpa using List.all_eq_true.1 List.all_takeWhile x hx
        rw [hsplit] at hpre ⊢
        exact cut_text (List.cons_ne_nil _ _) hw (starts_dropWhile r) hpre (List.cons_ne_nil _ _) ih'

end Harvesting.Markup
