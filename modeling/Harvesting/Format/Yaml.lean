import Harvesting.Number.Literal
import Harvesting.Text.Blank
import Harvesting.Tree.Basic

/-!
# Settings by indentation

Documents of YAML without anchors and tags.

* `Yaml.resolve` — what a word without quotes means;
* `Yaml.flow` — values in brackets, braces and quotes, which may run over several lines;
* `Yaml.node`, `Yaml.mapping`, `Yaml.sequence` — values by the indentation of their lines;
* `Yaml.read?` — the tree of a text with one document; a text without any is an empty table.
-/

namespace Harvesting.Yaml

open Text Reader

/-! ### Words -/

/-- Refuses the words for numbers that are not finite, which are no settings. -/
def isNotFinite (s : String) : Bool :=
  [".inf", ".Inf", ".INF", "+.inf", "+.Inf", "+.INF", "-.inf", "-.Inf", "-.INF", ".nan", ".NAN"].contains s

/-- A number with a mark for its base in front. -/
def based? (cs : List Char) : Option Int :=
  let digits (base : Nat) (ds : List Char) : Option Int :=
    let n : Int := Literal.numeralIn base ds
    if ds ≠ [] ∧ (ds.all fun c => (Literal.digitIn? base c).isSome) ∧ Literal.isWhole n then some n else none
  match cs with
  | '0' :: 'x' :: r => digits 16 r
  | '0' :: 'o' :: r => digits 8 r
  | _ => none

/-- What a word without quotes means. -/
def resolve (cs : List Char) : Option Scalar :=
  let s := String.ofList cs
  match (based? cs).or (Literal.whole? cs) with
  | some n => some (.int n)
  | none =>
    if s = "~" ∨ s = "null" ∨ s = "" then some .null
    else if s = "true" then some (.bool true)
    else if s = "false" then some (.bool false)
    else if isNotFinite s then none
    else match Literal.real? cs with
      | some x => some (.real x)
      | none => some (.string s)

/-! ### Texts in quotes -/

def isGap (c : Char) : Bool := c = ' ' || c = '\t'

/-- An end of line inside quotes, with the blanks around it: one is a space, more are one fewer. -/
def foldedBreak : Reader (List Char) := do
  let _ ← run isGap
  char '\n'
  let more ← many do
    let _ ← run isGap
    char '\n'
  let _ ← run isGap
  return if more.length = 0 then [' '] else List.replicate more.length '\n'

/-- A character by its hexadecimal digits. -/
def codePoint (n : Nat) : Reader (List Char) := fun cs =>
  let ds := cs.take n
  let code := Literal.numeralIn 16 ds
  if ds.length = n ∧ (ds.all fun c => (Literal.digitIn? 16 c).isSome) ∧ code.isValidChar then
    some ([Char.ofNat code], cs.drop n)
  else none

def escaped : Reader (List Char) := do
  match ← one (fun _ => true) with
  | '0' => return ['\x00']
  | 'a' => return ['\x07']
  | 'b' => return ['\x08']
  | 't' | '\t' => return ['\t']
  | 'n' => return ['\n']
  | 'v' => return ['\x0b']
  | 'f' => return ['\x0c']
  | 'r' => return ['\r']
  | 'e' => return ['\x1b']
  | ' ' => return [' ']
  | '"' => return ['"']
  | '/' => return ['/']
  | '\\' => return ['\\']
  | 'N' => return ['\u0085']
  | '_' => return ['\u00A0']
  | 'L' => return ['\u2028']
  | 'P' => return ['\u2029']
  | 'x' => codePoint 2
  | 'u' => codePoint 4
  | 'U' => codePoint 8
  | '\n' =>
    let _ ← run isGap
    return []
  | _ => refuse

def quoted : Reader String := oneOf [
  do
    char '"'
    let parts ← many (oneOf [foldedBreak, do { char '\\'; escaped },
      do { return [← one fun c => c ≠ '"' && c ≠ '\\' && c ≠ '\n'] }])
    char '"'
    return String.ofList parts.flatten,
  do
    char '\''
    let parts ← many (oneOf [foldedBreak, do { keyword "''"; return ['\''] },
      do { return [← one fun c => c ≠ '\'' && c ≠ '\n'] }])
    char '\''
    return String.ofList parts.flatten]

/-! ### Values in brackets -/

/-- Blanks, ends of lines and comments inside brackets. -/
def gap : Reader Unit := do
  let _ ← many (oneOf [do { let _ ← nonempty fun c => isGap c || c = '\n' },
    do { char '#'; let _ ← run (· ≠ '\n') }])

/-- A character that no word starts with. -/
def isIndicator (c : Char) : Bool := ",[]\x7b\x7d#&*!|>'\"%@`".toList.contains c

/-- The text of a word inside brackets, up to a comma, a bracket, a colon before a blank or a comment. -/
def wordText : List Char → List Char × List Char
  | [] => ([], [])
  | c :: r =>
    let endsHere := ",[]\x7b\x7d\n".toList.contains c ||
      (c = ':' && (r.head?.all fun d => isGap d || d = '\n' || ",[]\x7b\x7d".toList.contains d)) ||
      (isGap c && r.head? = some '#')
    if endsHere then ([], c :: r)
    else
      let (word, rest) := wordText r
      (c :: word, rest)

def word : Reader (List Char) := fun cs =>
  match cs with
  | [] => none
  | c :: r =>
    if isIndicator c ∨ ((c = '-' ∨ c = '?') ∧ r.head?.all isGap) then none
    else
      let (word, rest) := wordText cs
      if word = [] then none else some (trimEnd word, rest)

def single : Reader Scalar := oneOf [.string <$> quoted, do { ofOption (resolve (← word)) }]

/-- Items between brackets, a comma after each but possibly the last. -/
def items {α : Type} (opener closer : Char) (item : Reader α) : Reader (List α) := do
  char opener
  gap
  let xs ← maybe (separated (do { gap; char ','; gap }) item)
  gap
  if xs.isSome then
    let _ ← maybe (char ',')
  gap
  char closer
  return xs.getD []

def key : Reader String := oneOf [quoted, String.ofList <$> word]

/-- A member inside braces; a key alone has null. -/
def member (origin : Option String) (item : Reader Tree) : Reader (String × Tree) := do
  let k ← key
  gap
  let v ← maybe do
    char ':'
    gap
    let v ← maybe item
    return v.getD (.scalar origin .null)
  return (k, v.getD (.scalar origin .null))

/-- A value in brackets or quotes, or a word inside brackets, at most `depth` values deep. -/
def flow (origin : Option String) : (depth : Nat) → Reader Tree
  | 0 => refuse
  | depth + 1 => oneOf [
    .list origin <$> items '[' ']' (flow origin depth),
    .table origin <$> items '\x7b' '\x7d' (member origin (flow origin depth)),
    .scalar origin <$> single]

/-! ### Lines -/

/-- A line: how far it is indented, and the text after that. -/
structure Line where
  indent : Nat
  text : List Char
  deriving Repr, DecidableEq

def Line.ofChars (cs : List Char) : Line :=
  let text := cs.dropWhile (· = ' ')
  ⟨cs.length - text.length, text⟩

def Line.isBlank (l : Line) : Bool :=
  match l.text.dropWhile isGap with
  | [] => true
  | c :: _ => c = '#'

/-- The lines without the blank ones in front. -/
def skipBlank (ls : List Line) : List Line := ls.dropWhile Line.isBlank

/-- The line is an item of a sequence: what follows the dash, further indented. -/
def Line.item? (l : Line) : Option Line :=
  match l.text with
  | '-' :: r =>
    if r.head?.all isGap then
      let inner := Line.ofChars r
      some ⟨l.indent + 1 + inner.indent, inner.text⟩
    else none
  | _ => none

/-- What stands before the first colon that ends a key, and what follows it. -/
def splitColon : List Char → Option (List Char × List Char)
  | [] => none
  | c :: r =>
    if c = ':' ∧ r.head?.all isGap then some ([], r.dropWhile isGap)
    else if isGap c ∧ r.head? = some '#' then none
    else (splitColon r).map fun (before, after) => (c :: before, after)

/-- The line is a member of a mapping: its key, and the text of its value. -/
def Line.member? (l : Line) : Option (String × List Char) :=
  match l.text with
  | [] => none
  | c :: r =>
    if c = '"' ∨ c = '\'' then do
      let (k, rest) ← quoted l.text
      match rest.dropWhile isGap with
      | ':' :: v => if v.head?.all isGap then some (k, v.dropWhile isGap) else none
      | _ => none
    else if isIndicator c ∨ ((c = '-' ∨ c = '?') ∧ r.head?.all isGap) then none
    else do
      let (k, v) ← splitColon l.text
      return (String.ofList (trimEnd k), v)

/-- A text without the comment at its end. -/
def withoutComment : List Char → List Char
  | [] => []
  | c :: r => if isGap c ∧ r.head? = some '#' then [] else c :: withoutComment r

def joined (ls : List Line) : List Char :=
  (ls.map fun l => List.replicate l.indent ' ' ++ l.text).intersperse ['\n'] |>.flatten

/-! ### Texts of several lines -/

/-- How a block of lines ends: with one end of line, with none, or with all. -/
inductive Chomp where
  | clip
  | strip
  | keep

/-- The lines of a block that is indented by `n`: those indented as far, and blank ones. -/
def blockLines (n : Nat) : List Line → List (List Char) × List Line
  | [] => ([], [])
  | l :: r =>
    if l.text = [] ∨ n ≤ l.indent then
      let (ls, rest) := blockLines n r
      ((List.replicate (l.indent - n) ' ' ++ l.text) :: ls, rest)
    else ([], l :: r)

/-- Lines as one text in which single ends of lines are spaces. -/
def foldLines : List (List Char) → List Char
  | [] => []
  | [l] => l
  | l :: [] :: r => l ++ '\n' :: foldLines r
  | l :: m :: r =>
    let plain (cs : List Char) : Bool := cs.head?.any fun c => !isGap c
    l ++ (if plain l ∧ plain m then ' ' else '\n') :: foldLines (m :: r)

/-- A text of the lines after a mark, as they are or folded. -/
def block (outer : Nat) (folded : Bool) (header : List Char) (ls : List Line) :
    Option (String × List Line) := do
  let header := trimEnd (withoutComment (' ' :: header)) |>.dropWhile isGap
  let chomp ← match header.filter (!·.isDigit) with
    | [] => some Chomp.clip
    | ['-'] => some .strip
    | ['+'] => some .keep
    | _ => none
  let n := match header.filter Char.isDigit with
    | [] => max (outer + 1) (((ls.dropWhile (·.text = [])).head?.map Line.indent).getD 0)
    | ds => outer + Decimal.numeral ds
  let (content, rest) := blockLines n ls
  let kept := (content.reverse.dropWhile (· = [])).reverse
  let text := if folded then foldLines kept else (kept.intersperse ['\n']).flatten
  let ending := if kept = [] then [] else match chomp with
    | .clip => ['\n']
    | .strip => []
    | .keep => '\n' :: List.replicate (content.length - kept.length) '\n'
  return (String.ofList (text ++ ending), rest)

/-- The lines that go on a word of the line before them, and those after them. -/
def continuation (outer : Nat) : List Line → Option (List (List Char) × List Line)
  | [] => some ([], [])
  | l :: r =>
    if l.text = [] then do
      let (ls, rest) ← continuation outer r
      return if ls = [] then ([], l :: rest) else ([] :: ls, rest)
    else if l.indent ≤ outer ∨ l.isBlank then some ([], l :: r)
    else if (splitColon l.text).isSome then none
    else do
      let text := withoutComment l.text
      if text.length < l.text.length then return ([trimEnd text], r)
      let (ls, rest) ← continuation outer r
      return (trimEnd text :: ls, rest)

/-- The end of the line after a value in brackets or quotes. -/
def endOfValue : List Char → Option Unit
  | [] => some ()
  | c :: r => if isGap c then (if r.head? = some '#' then some () else endOfValue r) else none

/-- A value that starts within a line; further lines of it are indented by more than `outer`. -/
def inlineValue (origin : Option String) (outer : Option Nat) (l : Line) (ls : List Line) :
    Option (Tree × List Line) :=
  let least := (outer.map (· + 1)).getD 0
  match l.text with
  | [] => some (.scalar origin .null, ls)
  | c :: r =>
    if "[\x7b\"'".toList.contains c then do
      let cs := joined (⟨0, l.text⟩ :: ls)
      let (t, rest) ← flow origin (cs.length + 1) cs
      endOfValue (rest.takeWhile (· ≠ '\n'))
      let left := (rest.filter (· = '\n')).length
      return (t, ls.drop (ls.length - left))
    else if c = '|' ∨ c = '>' then do
      let (s, rest) ← block (least - 1) (c = '>') r ls
      return (.scalar origin (.string s), rest)
    else if isIndicator c ∨ (splitColon l.text).isSome then none
    else do
      let first := withoutComment l.text
      let (more, rest) ← if first.length < l.text.length then some ([], ls)
        else match outer with
          | some n => continuation n ls
          | none => some ([], ls)
      let s ← resolve (foldLines (trimEnd first :: more))
      return (.scalar origin s, rest)

/-! ### Values by indentation -/

mutual

/-- The value that starts on the next line, if it is indented by at least `least`; else null. -/
def node (origin : Option String) (fuel least : Nat) (ls : List Line) : Option (Tree × List Line) :=
  match fuel with
  | 0 => none
  | fuel + 1 =>
    match skipBlank ls with
    | [] => some (.scalar origin .null, [])
    | l :: r =>
      if l.indent < least then some (.scalar origin .null, l :: r)
      else if l.text.head? = some '\t' then none
      else if l.item?.isSome then do
        let (items, rest) ← sequence origin fuel l.indent (l :: r)
        return (.list origin items, rest)
      else if l.member?.isSome then do
        let (members, rest) ← mapping origin fuel l.indent (l :: r)
        return (.table origin members, rest)
      else inlineValue origin (if least = 0 then none else some (least - 1)) l r

/-- The items of a sequence that is indented by `n`. -/
def sequence (origin : Option String) (fuel n : Nat) (ls : List Line) : Option (List Tree × List Line) :=
  match fuel with
  | 0 => none
  | fuel + 1 =>
    match skipBlank ls with
    | [] => some ([], [])
    | l :: r =>
      match l.item? with
      | none => if n < l.indent then none else some ([], l :: r)
      | some inner =>
        if l.indent < n then some ([], l :: r)
        else if n < l.indent then none
        else do
          let (t, rest) ← node origin fuel (n + 1) (if inner.isBlank then r else inner :: r)
          let (ts, rest) ← sequence origin fuel n rest
          return (t :: ts, rest)

/-- The members of a mapping that is indented by `n`. -/
def mapping (origin : Option String) (fuel n : Nat) (ls : List Line) :
    Option (List (String × Tree) × List Line) :=
  match fuel with
  | 0 => none
  | fuel + 1 =>
    match skipBlank ls with
    | [] => some ([], [])
    | l :: r =>
      if l.indent < n then some ([], l :: r)
      else if n < l.indent then none
      else match l.member? with
        | none => none
        | some (k, v) => do
          let value : Line := ⟨n + 1, v⟩
          let (t, rest) ← if value.isBlank then below origin fuel n (skipBlank r)
            else inlineValue origin (some n) value r
          let (ms, rest) ← mapping origin fuel n rest
          return ((k, t) :: ms, rest)

/-- The value of a key on the lines after it: a sequence need not be further indented than the key. -/
def below (origin : Option String) (fuel n : Nat) (ls : List Line) : Option (Tree × List Line) :=
  match fuel with
  | 0 => none
  | fuel + 1 =>
    if ls.head?.any fun l => l.indent = n && l.item?.isSome then
      (sequence origin fuel n ls).map fun (items, rest) => (.list origin items, rest)
    else node origin fuel (n + 1) ls

end

/-! ### Documents -/

def textLines (cs : List Char) : List Line :=
  let cs := cs.filter (· ≠ '\r')
  go cs []
where
  go : List Char → List Char → List Line
    | [], current => [Line.ofChars current.reverse]
    | '\n' :: r, current => Line.ofChars current.reverse :: go r []
    | c :: r, current => go r (c :: current)

def Line.isStart (l : Line) : Bool :=
  l.indent = 0 && "---".toList.isPrefixOf l.text && ((l.text.drop 3).head?.all isGap)

def Line.isEnd (l : Line) : Bool := l.indent = 0 && trimEnd l.text = "...".toList

/-- The lines of the only document; none if there are more. -/
def onlyDocument? (ls : List Line) : Option (List Line) := do
  let ls := skipBlank (ls.dropWhile fun l => l.isBlank || l.text.head? = some '%')
  let ls := match ls with
    | l :: r =>
      if l.isStart then
        let rest := Line.ofChars (l.text.drop 3)
        if rest.isBlank then r else ⟨3 + rest.indent, rest.text⟩ :: r
      else ls
    | [] => []
  let inside := ls.takeWhile fun (l : Line) => !l.isStart && !l.isEnd
  let after := (ls.drop inside.length).dropWhile fun (l : Line) => l.isEnd || l.isBlank
  if after.isEmpty then some inside else none

def read? (origin : Option String) (s : String) : Option Tree := do
  let all := textLines s.toList
  if skipBlank all = [] then return .table origin []
  let ls ← onlyDocument? all
  let (t, rest) ← node origin (4 * s.length + 8) 0 ls
  if skipBlank rest = [] then some t else none

end Harvesting.Yaml
