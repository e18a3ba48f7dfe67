import Harvesting.Markup.Fault

/-!
# Pieces of markup

A marked-up text is a sequence of pieces: tags, character data, comments and so on.

    text (List Char) ──pieces──▶ List Piece ──source──▶ the same text

* `Piece` — the kinds of pieces, each with what stands between its delimiters;
* `Piece.source` — the piece as it was written;
* `pieces` — a text cut into pieces. Where a piece is not closed or opens in no known way, the list ends
  with a broken piece, which says how far it reaches.

Tags end at the first `>` outside quotes, a document type at the `>` that balances its brackets, the
others at the first delimiter of their own.
-/

namespace Harvesting.Markup

/-- A piece of marked-up text. -/
inductive Piece where
  | text (content : List Char)
  /-- A start tag `<body>`. -/
  | opening (body : List Char)
  /-- An empty element `<body/>`. -/
  | single (body : List Char)
  /-- An end tag `</body>`. -/
  | closing (body : List Char)
  | comment (content : List Char)
  /-- A section of characters that are not markup. -/
  | characters (content : List Char)
  | instruction (content : List Char)
  /-- A document type: what follows the word `DOCTYPE`, as it was written. -/
  | doctype (word content : List Char)
  | broken (written : List Char) (fault : Fault)
  deriving Repr, DecidableEq

def Piece.source : Piece → List Char
  | .text cs => cs
  | .opening b => '<' :: b ++ ['>']
  | .single b => '<' :: b ++ ['/', '>']
  | .closing b => '<' :: '/' :: b ++ ['>']
  | .comment cs => "<!--".toList ++ cs ++ "-->".toList
  | .characters cs => "<![CDATA[".toList ++ cs ++ "]]>".toList
  | .instruction cs => "<?".toList ++ cs ++ "?>".toList
  | .doctype w cs => "<!".toList ++ w ++ cs ++ ['>']
  | .broken cs _ => cs

/-! ### Ends of pieces -/

/-- What stands before the first occurrence of a delimiter, and what follows it. -/
def cutAt? (mark : List Char) : List Char → Option (List Char × List Char)
  | [] => none
  | c :: r =>
    if mark.isPrefixOf (c :: r) then some ([], (c :: r).drop mark.length)
    else (cutAt? mark r).map fun (before, after) => (c :: before, after)

/-- The inside of a tag and what follows it: the tag ends at the first `>` outside `quote`. -/
def cutTag? (quote : Option Char) : List Char → Option (List Char × List Char)
  | [] => none
  | c :: r =>
    let keep (quote : Option Char) := (cutTag? quote r).map fun (before, after) => (c :: before, after)
    match quote with
    | none =>
      if c = '>' then some ([], r)
      else if c = '"' ∨ c = '\'' then keep (some c)
      else keep none
    | some q => keep (if c = q then none else some q)

/-- The inside of a declaration with `depth` open brackets, and what follows it. -/
def cutBalanced? (depth : Nat) : List Char → Option (List Char × List Char)
  | [] => none
  | c :: r =>
    let keep (depth : Nat) := (cutBalanced? depth r).map fun (before, after) => (c :: before, after)
    if c = '<' then keep (depth + 1)
    else if c = '>' then if depth = 0 then some ([], r) else keep (depth - 1)
    else keep depth

/-! ### The first piece -/

/-- The piece that starts with `opener`, is delimited by `mark`, and is not closed otherwise. -/
def delimited (opener mark : List Char) (piece : List Char → Piece) (fault : Fault) (r : List Char) :
    Piece × List Char :=
  match cutAt? mark r with
  | some (body, rest) => (piece body, rest)
  | none => (.broken (opener ++ r) fault, [])

/-- What starts with `opener` but is of no kind: it reaches to `mark`. -/
def misspelt (opener mark : List Char) (fault : Fault) : List Char → Piece × List Char :=
  delimited opener mark (fun body => .broken (opener ++ body ++ mark) fault) fault

/-- The word that opens a document type. -/
def doctypeWord : List Char := "DOCTYPE".toList

/-- A document type; `r` starts with the letter after `<!`. -/
def doctypePiece (r : List Char) : Piece × List Char :=
  match cutBalanced? 0 r with
  | none => (.broken ("<!".toList ++ r) .doctypeNotClosed, [])
  | some (body, rest) =>
    let word := body.take doctypeWord.length
    let content := body.drop doctypeWord.length
    if word.map Char.toUpper ≠ doctypeWord then
      (.broken ("<!".toList ++ body ++ ['>']) .doctypeNotClosed, rest)
    else if content.all isSpace then (.broken ("<!".toList ++ body ++ ['>']) .doctypeUnnamed, rest)
    else (.doctype word content, rest)

/-- The piece that starts with `<!`. -/
def declaration : List Char → Piece × List Char
  | '-' :: '-' :: r => delimited "<!--".toList "-->".toList .comment .commentNotClosed r
  | '-' :: r => misspelt "<!-".toList "-->".toList .commentNotClosed r
  | '[' :: r =>
    if "CDATA[".toList.isPrefixOf r then
      delimited "<![CDATA[".toList "]]>".toList .characters .charactersNotClosed (r.drop 6)
    else misspelt "<![".toList "]]>".toList .charactersNotClosed r
  | c :: r =>
    if c = 'D' ∨ c = 'd' then doctypePiece (c :: r) else (.broken ['<'] .unknownMarkup, [])
  | [] => (.broken ['<'] .unknownMarkup, [])

/-- A start tag, or an empty element if its inside ends with a slash. -/
def Piece.ofTag (inside : List Char) : Piece :=
  if inside.getLast? = some '/' then .single inside.dropLast else .opening inside

/-- The piece that starts with `<`. -/
def markup : List Char → Piece × List Char
  | '!' :: r => declaration r
  | '?' :: '>' :: r => (.broken "<?>".toList .instructionNotClosed, r)
  | '?' :: r => delimited "<?".toList "?>".toList .instruction .instructionNotClosed r
  | '/' :: r =>
    match cutTag? none r with
    | some (body, rest) => (.closing body, rest)
    | none => (.broken ('<' :: '/' :: r) .tagNotClosed, [])
  | r =>
    match cutTag? none r with
    | some (inside, rest) => (.ofTag inside, rest)
    | none => (.broken ('<' :: r) .tagNotClosed, [])

/-- The first piece of a text that starts with `c`, and what follows it. -/
def firstPiece (c : Char) (r : List Char) : Piece × List Char :=
  if c = '<' then markup r
  else (.text (c :: r.takeWhile (· ≠ '<')), r.dropWhile (· ≠ '<'))

/-! ### All pieces -/

theorem length_of_cutAt? {mark cs before after : List Char} (h : cutAt? mark cs = some (before, after)) :
    after.length ≤ cs.length := by
  induction cs generalizing before after with
  | nil => simp [cutAt?] at h
  | cons c r ih =>
    rw [cutAt?] at h
    split at h
    · cases h; simp
    · obtain ⟨⟨b, a⟩, hr, heq⟩ := Option.map_eq_some_iff.1 h
      cases heq
      have := ih hr
      simp; omega

theorem length_of_cutTag? {q : Option Char} {cs before after : List Char}
    (h : cutTag? q cs = some (before, after)) : after.length < cs.length := by
  induction cs generalizing q before after with
  | nil => simp [cutTag?] at h
  | cons c r ih =>
    have keep {q : Option Char}
        (h : ((cutTag? q r).map fun (b, a) => (c :: b, a)) = some (before, after)) :
        after.length < (c :: r).length := by
      obtain ⟨⟨b, a⟩, hr, heq⟩ := Option.map_eq_some_iff.1 h
      cases heq
      have := ih hr
      simp; omega
    unfold cutTag? at h
    cases q with
    | none =>
      simp only at h
      split at h
      · cases h; simp
      · split at h <;> exact keep h
    | some q => exact keep h

theorem length_of_cutBalanced? {depth : Nat} {cs before after : List Char}
    (h : cutBalanced? depth cs = some (before, after)) : after.length < cs.length := by
  induction cs generalizing depth before after with
  | nil => simp [cutBalanced?] at h
  | cons c r ih =>
    have keep {depth : Nat}
        (h : ((cutBalanced? depth r).map fun (b, a) => (c :: b, a)) = some (before, after)) :
        after.length < (c :: r).length := by
      obtain ⟨⟨b, a⟩, hr, heq⟩ := Option.map_eq_some_iff.1 h
      cases heq
      have := ih hr
      simp; omega
    unfold cutBalanced? at h
    simp only at h
    split at h
    · exact keep h
    · split at h
      · split at h
        · cases h; simp
        · exact keep h
      · exact keep h

theorem length_delimited (opener mark : List Char) (piece : List Char → Piece) (fault : Fault)
    (r : List Char) : (delimited opener mark piece fault r).2.length ≤ r.length := by
  unfold delimited
  split
  · next h => exact length_of_cutAt? h
  · simp

theorem length_doctypePiece (r : List Char) : (doctypePiece r).2.length ≤ r.length := by
  unfold doctypePiece
  split
  · simp
  · next h =>
    have := length_of_cutBalanced? h
    simp only
    split
    · simp; omega
    · split <;> (simp; omega)

theorem length_declaration (r : List Char) : (declaration r).2.length ≤ r.length := by
  unfold declaration
  split
  · exact Nat.le_trans (length_delimited ..) (by simp; omega)
  · exact Nat.le_trans (length_delimited ..) (by simp)
  · split
    · exact Nat.le_trans (length_delimited ..) (by simp; omega)
    · exact Nat.le_trans (length_delimited ..) (by simp)
  · split
    · exact length_doctypePiece _
    · simp
  · simp

theorem length_markup (r : List Char) : (markup r).2.length ≤ r.length := by
  unfold markup
  split
  · exact Nat.le_trans (length_declaration _) (by simp)
  · simp; omega
  · exact Nat.le_trans (length_delimited ..) (by simp)
  · split
    · next h => have := length_of_cutTag? h; simp; omega
    · simp
  · split
    · next h => have := length_of_cutTag? h; simp; omega
    · simp

theorem length_firstPiece (c : Char) (r : List Char) : (firstPiece c r).2.length ≤ r.length := by
  unfold firstPiece
  split
  · exact length_markup r
  · exact (List.dropWhile_sublist _).length_le

def pieces : List Char → List Piece
  | [] => []
  | c :: r => (firstPiece c r).1 :: pieces (firstPiece c r).2
termination_by cs => cs.length
decreasing_by
  have := length_firstPiece c r
  simp_wf; omega

end Harvesting.Markup
