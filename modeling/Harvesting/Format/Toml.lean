import Harvesting.Number.Literal
import Harvesting.Time.Stamp
import Harvesting.Tree.Basic

/-!
# Settings as tables of keys

Documents of version 1.0 of TOML.

* `Toml.Item` — a document while it is read: a value that is complete, a table to which keys may still
  be added, or a list of tables;
* `Toml.update`, `Toml.openTable`, `Toml.openItem` — what keys and headers do to a document: no key and
  no table is defined twice, and a table is extended only in the way in which it was started;
* `Toml.document`, `Toml.read?` — reading; dates and times become texts.
-/

namespace Harvesting.Toml

open Text Reader

/-! ### Documents while they are read -/

/-- A part of a document while it is read. -/
inductive Item where
  | value (t : Tree)
  /-- A table; `implicit` if no header has named it, `dotted` if a key with points has started it. -/
  | table (implicit dotted : Bool) (members : List (String × Item))
  | tables (items : List (List (String × Item)))

abbrev Members := List (String × Item)

def put (name : String) (i : Item) : Members → Members
  | [] => [(name, i)]
  | (k, v) :: r => if k = name then (k, i) :: r else (k, v) :: put name i r

/--
Changes the table at the end of a path; `change` is told whether the table was started by a key with
points. Tables on the way are made where they are missing. A path that is part of a key (`byKey`) does
not enter tables that a header has named.
-/
def update (byKey : Bool) (change : Bool → Members → Option Members) :
    (path : List String) → (dotted : Bool) → Members → Option Members
  | [], dotted, ms => change dotted ms
  | k :: path, _, ms =>
    match ms.lookup k with
    | none => do return put k (.table true byKey (← update byKey change path byKey [])) ms
    | some (.table implicit dotted sub) =>
      if byKey ∧ ¬ implicit then none
      else do return put k (.table implicit dotted (← update byKey change path dotted sub)) ms
    | some (.tables items) => do
      let last ← items.getLast?
      return put k (.tables (items.dropLast ++ [← update byKey change path false last])) ms
    | some (.value _) => none

def setKey (path : List String) (name : String) (i : Item) (ms : Members) : Option Members :=
  update true (fun dotted ms =>
    if dotted = path.isEmpty ∨ (ms.lookup name).isSome then none else some (ms ++ [(name, i)])) path false ms

/-- The header of a table: only a table that no header has named yet can be opened. -/
def openTable (path : List String) (name : String) (ms : Members) : Option Members :=
  update false (fun _ ms =>
    match ms.lookup name with
    | none => some (ms ++ [(name, .table false false [])])
    | some (.table true false sub) => some (put name (.table false false sub) ms)
    | _ => none) path false ms

def openItem (path : List String) (name : String) (ms : Members) : Option Members :=
  update false (fun _ ms =>
    match ms.lookup name with
    | none => some (ms ++ [(name, .tables [[]])])
    | some (.tables items) => some (put name (.tables (items ++ [[]])) ms)
    | _ => none) path false ms

mutual

/-- The tree of a part of a document. -/
def Item.tree (origin : Option String) : Item → Tree
  | .value t => t
  | .table _ _ ms => .table origin (treeMembers origin ms)
  | .tables items => .list origin (treeItems origin items)

def treeMembers (origin : Option String) : List (String × Item) → List (String × Tree)
  | [] => []
  | (k, i) :: r => (k, i.tree origin) :: treeMembers origin r

def treeItems (origin : Option String) : List (List (String × Item)) → List Tree
  | [] => []
  | ms :: r => .table origin (treeMembers origin ms) :: treeItems origin r

end

/-! ### Blanks and ends of lines -/

def isGap (c : Char) : Bool := c = ' ' || c = '\t'

def gap : Reader Unit := do
  let _ ← run isGap

/-- A character that texts and comments may hold as it is. -/
def isPlain (c : Char) : Bool := c = '\t' || (' ' ≤ c && c.toNat ≠ 0x7F)

def newline : Reader Unit := oneOf [keyword "\n", keyword "\r\n"]

/-- A comment up to the end of its line. -/
def comment : Reader Unit := do
  char '#'
  let _ ← run isPlain

/-- Blanks and possibly a comment, up to the end of the line or of the document. -/
def lineEnd : Reader Unit := do
  gap
  let _ ← maybe comment
  oneOf [newline, finish]

/-- Blanks, comments and ends of lines. -/
def gaps : Reader Unit := do
  let blank : Reader Unit := do
    let _ ← nonempty isGap
  let _ ← many (oneOf [blank, newline, do { comment; newline }])

/-! ### Texts -/

/-- The character of exactly `n` hexadecimal digits. -/
def codePoint (n : Nat) : Reader Char := fun cs =>
  let ds := cs.take n
  let code := Literal.numeralIn 16 ds
  if ds.length = n ∧ (ds.all fun c => (Literal.digitIn? 16 c).isSome) ∧ code.isValidChar then
    some (Char.ofNat code, cs.drop n)
  else none

def escaped : Reader Char := do
  match ← one (fun _ => true) with
  | 'b' => return '\x08'
  | 't' => return '\t'
  | 'n' => return '\n'
  | 'f' => return '\x0c'
  | 'r' => return '\r'
  | '"' => return '"'
  | '\\' => return '\\'
  | 'u' => codePoint 4
  | 'U' => codePoint 8
  | _ => refuse

/-- A character of a text in quotation marks. -/
def basicChar : Reader Char :=
  oneOf [do { char '\\'; escaped }, one fun c => isPlain c && c ≠ '"' && c ≠ '\\']

/-- A text on one line, in quotation marks or apostrophes. -/
def lineText : Reader String := oneOf [
  do
    char '"'
    let cs ← many basicChar
    char '"'
    return String.ofList cs,
  do
    char '\''
    let cs ← run fun c => isPlain c && c ≠ '\''
    char '\''
    return String.ofList cs]

/-- Three marks that end a text; up to two marks before them belong to it. -/
def closing (c : Char) : Reader (List Char) := do
  let marks ← run (· = c)
  require (3 ≤ marks.length ∧ marks.length ≤ 5)
  return marks.drop 3

/-- One or two marks that do not end a text. -/
def innerMarks (c : Char) : Reader (List Char) := do
  let marks ← nonempty (· = c)
  require (marks.length < 3)
  return marks

/-- The end of a line inside a text. -/
def textNewline : Reader (List Char) := do
  newline
  return ['\n']

/-- A backslash at the end of a line: the blanks up to the next word do not count. -/
def folded : Reader (List Char) := do
  char '\\'
  gap
  newline
  let _ ← many (oneOf [do { let _ ← nonempty isGap }, newline])
  return []

/-- A text over several lines between three marks. -/
def longText (mark : Char) (part : Reader (List Char)) : Reader String := do
  char mark
  char mark
  char mark
  let _ ← maybe newline
  let parts ← many part
  let last ← closing mark
  return String.ofList (parts.flatten ++ last)

def text : Reader String := oneOf [
  longText '"' (oneOf [do { return [← basicChar] }, textNewline, folded, innerMarks '"']),
  longText '\'' (oneOf [nonempty fun c => isPlain c && c ≠ '\'', textNewline, innerMarks '\'']),
  lineText]

/-! ### Keys -/

/-- A character of a key without quotation marks. -/
def isBareKey (c : Char) : Bool := c.isAlphanum || c = '_' || c = '-'

def simpleKey : Reader String := oneOf [lineText, String.ofList <$> nonempty isBareKey]

/-- A key with points: the names before the last one, and the last one. -/
def key : Reader (List String × String) := do
  let names ← separated (do { gap; char '.'; gap }) simpleKey
  return (names.dropLast, ← ofOption names.getLast?)

/-! ### Numbers, switches and dates -/

/-- Digits of a class, single underscores between them. -/
def digits (p : Char → Bool) : Reader (List Char) := do
  let groups ← separated (char '_') (nonempty p)
  return groups.flatten

/-- A whole number without a zero in front, as it is written. -/
def decimalDigits : Reader (List Char) := do
  let ds ← digits Char.isDigit
  require (ds.head? ≠ some '0' ∨ ds.length = 1)
  return ds

def based (mark : String) (base : Nat) : Reader Int := do
  keyword mark
  let ds ← digits fun c => (Literal.digitIn? base c).isSome
  let n : Int := Literal.numeralIn base ds
  require (Literal.isWhole n)
  return n

def whole : Reader Int := oneOf [based "0x" 16, based "0o" 8, based "0b" 2, do
  let negative ← Literal.sign
  let n := Literal.withSign negative (Decimal.numeral (← decimalDigits))
  require (Literal.isWhole n)
  return n]

def exponent : Reader Int := do
  let _ ← one fun c => c = 'e' || c = 'E'
  let negative ← Literal.sign
  return Literal.withSign negative (Decimal.numeral (← digits Char.isDigit))

/-- A number with a fraction or an exponent, or one that is not finite. Of the numbers that are too
large only the positive ones are refused. -/
def real : Reader Binary64 := do
  let negative ← Literal.sign
  let finite : Reader Binary64 := do
    let before ← decimalDigits
    let after ← maybe (do { char '.'; digits Char.isDigit })
    let e ← maybe exponent
    require (after.isSome ∨ e.isSome)
    let fraction := after.getD []
    let x := Binary64.ofDecimal negative (Decimal.numeral (before ++ fraction)) (e.getD 0 - fraction.length)
    require (negative ∨ x.isFinite)
    return x
  oneOf [finite, do { keyword "inf"; return .infinite negative }, do { keyword "nan"; return .nan }]

/-- Exactly `n` digits with a value within bounds. -/
def fixed (n lo hi : Nat) : Reader Nat := do
  let ds ← run Char.isDigit
  require (n ≤ ds.length)
  let v := Decimal.numeral (ds.take n)
  require (lo ≤ v ∧ v ≤ hi)
  fun cs => some (v, ds.drop n ++ cs)

def date : Reader Date := do
  let year ← fixed 4 0 9999
  char '-'
  let month ← fixed 2 1 12
  char '-'
  let day ← fixed 2 1 31
  let d : Date := ⟨year, month, day⟩
  require d.Valid
  return d

/-- A time of day, as it is printed: of a fraction nine digits count, without zeros at the end. -/
def time : Reader String := do
  let hour ← fixed 2 0 23
  char ':'
  let minute ← fixed 2 0 59
  char ':'
  let second ← fixed 2 0 60
  let fraction ← maybe (do { char '.'; nonempty Char.isDigit })
  let kept := (((fraction.getD []).take 9).reverse.dropWhile (· = '0')).reverse
  let two := Decimal.padded 2
  return two hour ++ ":" ++ two minute ++ ":" ++ two second ++
    (if kept = [] then "" else "." ++ String.ofList kept)

/-- The offset from universal time, as it is printed. -/
def offset : Reader String := oneOf [
  do
    let _ ← one fun c => c = 'Z' || c = 'z'
    return "Z",
  do
    let sign ← one fun c => c = '+' || c = '-'
    let hours ← fixed 2 0 23
    char ':'
    let minutes ← fixed 2 0 59
    let sign := if hours = 0 ∧ minutes = 0 then '+' else sign
    return String.ofList [sign] ++ Decimal.padded 2 hours ++ ":" ++ Decimal.padded 2 minutes]

/-- A date, a time of day, or both, as they are printed. -/
def moment : Reader String := oneOf [
  do
    let d ← date
    let clock ← maybe do
      let _ ← one fun c => c = 'T' || c = 't' || c = ' '
      let t ← time
      return "T" ++ t ++ (← maybe offset).getD ""
    return Stamp.dateText d ++ clock.getD "",
  time]

/-- The word that follows, if it is not part of a longer one. -/
def switch : Reader Bool :=
  oneOf [do { keyword "true"; return true }, do { keyword "false"; return false }]

/-! ### Values -/

/-- Values in brackets; a comma may follow the last one. -/
def array (item : Reader Tree) : Reader (List Tree) := do
  char '['
  gaps
  let items ← maybe (separated (do { gaps; char ','; gaps }) item)
  gaps
  if items.isSome then
    let _ ← maybe (char ',')
  gaps
  char ']'
  return items.getD []

def pair (item : Reader Tree) : Reader ((List String × String) × Tree) := do
  let k ← key
  gap
  char '='
  gap
  return (k, ← item)

/-- Keys and values in braces, on one line. -/
def inline (origin : Option String) (item : Reader Tree) : Reader Tree := do
  char '\x7b'
  gap
  let pairs ← maybe (separated (do { gap; char ','; gap }) (pair item))
  gap
  char '\x7d'
  let ms ← ofOption ((pairs.getD []).foldlM (fun ms ((path, name), t) => setKey path name (.value t) ms) [])
  return .table origin (treeMembers origin ms)

/-- A value that holds no values. -/
def scalar : Reader Scalar :=
  oneOf [.string <$> text, .string <$> moment, .real <$> real, .int <$> whole, .bool <$> switch]

def value (origin : Option String) : (depth : Nat) → Reader Tree
  | 0 => refuse
  | depth + 1 => oneOf [
    .list origin <$> array (value origin depth),
    inline origin (value origin depth),
    .scalar origin <$> scalar]

/-! ### Documents -/

/-- One line of a document, as what it does to the document and to the path of the open table. -/
inductive Line where
  | blank
  | pair (path : List String) (name : String) (t : Tree)
  | table (path : List String) (name : String)
  | item (path : List String) (name : String)

def header (opener closer : String) : Reader (List String × String) := do
  keyword opener
  gap
  let k ← key
  gap
  keyword closer
  return k

def line (origin : Option String) (depth : Nat) : Reader Line := do
  gap
  let l ← oneOf [
    (fun (path, name) => .item path name) <$> header "[[" "]]",
    (fun (path, name) => .table path name) <$> header "[" "]",
    (fun ((path, name), t) => .pair path name t) <$> pair (value origin depth),
    pure .blank]
  lineEnd
  return l

/-- A document and the path of the table that is open. -/
structure Open where
  members : Members
  path : List String

/-- The document after one more line. -/
def Open.step (d : Open) : Line → Option Open
  | .blank => some d
  | .table path name => do return ⟨← openTable path name d.members, path ++ [name]⟩
  | .item path name => do return ⟨← openItem path name d.members, path ++ [name]⟩
  | .pair path name t => do
    let ms ← update false (fun _ ms => setKey path name (.value t) ms) d.path false d.members
    return { d with members := ms }

def lines (origin : Option String) (depth : Nat) : Reader (List Line) := do
  let _ ← maybe (char '\uFEFF')
  let ls ← many (line origin depth)
  finish
  return ls

/-- The table that a document writes. -/
def read? (origin : Option String) (s : String) : Option Tree := do
  let cs := s.toList
  let d ← (← whole? (lines origin (cs.length + 1)) cs).foldlM Open.step ⟨[], []⟩
  return .table origin (treeMembers origin d.members)

end Harvesting.Toml
