import Harvesting.Number.Literal
import Harvesting.Tree.Basic

/-!
# Settings in object notation

Values with named records: `(name: "a", tags: ["b"], set: Some("c"))`. The names of
records say nothing; an optional value is the value or null.

* `Ron.read?` — the tree of a text.
-/

namespace Harvesting.Ron

open Text Reader

def isGap (c : Char) : Bool := c = ' ' || c = '\t' || c = '\n' || c = '\r'

/-- What follows the end of a comment `depth` comments deep. -/
def afterComment? (depth : Nat) : List Char → Option (List Char)
  | '*' :: '/' :: r => if depth = 0 then some r else afterComment? (depth - 1) r
  | '/' :: '*' :: r => afterComment? (depth + 1) r
  | _ :: r => afterComment? depth r
  | [] => none

def comment : Reader Unit
  | '/' :: '/' :: r => some ((), r.dropWhile (· ≠ '\n'))
  | '/' :: '*' :: r => (afterComment? 0 r).map fun r => ((), r)
  | _ => none

def gap : Reader Unit := do
  let _ ← many (oneOf [comment, do { let _ ← nonempty isGap }])

def name : Reader String := do
  let isStart (c : Char) : Bool := c.isAlpha || c = '_'
  let first ← one isStart
  let rest ← run fun c => isStart c || c.isDigit
  return String.ofList (first :: rest)

def escaped : Reader Char := do
  match ← one (fun _ => true) with
  | 'n' => return '\n'
  | 'r' => return '\r'
  | 't' => return '\t'
  | '0' => return '\x00'
  | '\\' => return '\\'
  | '"' => return '"'
  | '\'' => return '\''
  | 'x' =>
    let ds ← run fun c => (Literal.digitIn? 16 c).isSome
    require (2 ≤ ds.length)
    fun cs => some (Char.ofNat (Literal.numeralIn 16 (ds.take 2)), ds.drop 2 ++ cs)
  | 'u' =>
    char '\x7b'
    let ds ← nonempty fun c => (Literal.digitIn? 16 c).isSome
    char '\x7d'
    let code := Literal.numeralIn 16 ds
    require (ds.length ≤ 6 ∧ code.isValidChar)
    return Char.ofNat code
  | _ => refuse

def text : Reader String := do
  char '"'
  let cs ← many (oneOf [do { char '\\'; escaped }, one fun c => c ≠ '"' && c ≠ '\\'])
  char '"'
  return String.ofList cs

def letter : Reader String := do
  char '\''
  let c ← oneOf [do { char '\\'; escaped }, one fun c => c ≠ '\'' && c ≠ '\\']
  char '\''
  return String.ofList [c]

def number : Reader Scalar := do
  let negative ← Literal.sign
  let based (mark : String) (base : Nat) : Reader Nat := do
    keyword mark
    let ds ← nonempty fun c => (Literal.digitIn? base c).isSome || c = '_'
    return Literal.numeralIn base (ds.filter (· ≠ '_'))
  let whole (r : Reader Nat) : Reader Scalar := do
    let n := Literal.withSign negative (← r)
    require (Literal.isWhole n)
    return .int n
  let decimal : Reader Nat := do
    let ds ← nonempty fun c => c.isDigit || c = '_'
    require (ds.head? ≠ some '_')
    match ← peek with
    | some '.' | some 'e' | some 'E' => refuse
    | _ => return Decimal.numeral (ds.filter (· ≠ '_'))
  oneOf [whole (based "0x" 16), whole (based "0b" 2), whole (based "0o" 8), whole decimal,
    .real <$> Literal.decimal negative,
    do { keyword "inf"; return .real (.infinite negative) },
    do { keyword "NaN"; return .real .nan }]

/-- Items between two marks, a comma after each but possibly the last. -/
def items {α : Type} (opener closer : Char) (item : Reader α) : Reader (List α) := do
  char opener
  gap
  let xs ← maybe (separated (do { gap; char ','; gap }) item)
  gap
  if xs.isSome then
    let _ ← maybe (char ',')
  gap
  char closer
  return xs.getD []

def member (key : Reader String) (item : Reader Tree) : Reader (String × Tree) := do
  let k ← key
  gap
  char ':'
  gap
  return (k, ← item)

/-- What stands in parentheses: a record, a list, or nothing at all. -/
def group (origin : Option String) (item : Reader Tree) : Reader Tree := oneOf [
  do
    let ms ← items '(' ')' (member name item)
    return if ms.isEmpty then .scalar origin .null else .table origin ms,
  .list origin <$> items '(' ')' item]

/-- A value that a name starts: a switch, an optional value, or a record. -/
def named (origin : Option String) (item : Reader Tree) : Reader Tree := do
  match ← name with
  | "true" => return .scalar origin (.bool true)
  | "false" => return .scalar origin (.bool false)
  | "None" => return .scalar origin .null
  | "Some" =>
    gap
    char '('
    gap
    let t ← item
    gap
    let _ ← maybe (char ',')
    gap
    char ')'
    return t
  | "inf" => return .scalar origin (.real (.infinite false))
  | "NaN" => return .scalar origin (.real .nan)
  | _ =>
    gap
    let g ← maybe (group origin item)
    return g.getD (.scalar origin .null)

def value (origin : Option String) : (depth : Nat) → Reader Tree
  | 0 => refuse
  | depth + 1 =>
    let item := value origin depth
    oneOf [
      .table origin <$> items '\x7b' '\x7d' (member text item),
      .list origin <$> items '[' ']' item,
      group origin item,
      .scalar origin <$> (.string <$> text),
      .scalar origin <$> (.string <$> letter),
      named origin item,
      .scalar origin <$> number]

/-- The extensions that a text may ask for in front. -/
def extensions : Reader Unit := do
  let _ ← many do
    gap
    keyword "#![enable("
    let _ ← run (· ≠ ')')
    keyword ")]"

def read? (origin : Option String) (s : String) : Option Tree :=
  whole? (do
    extensions
    gap
    let t ← value origin (s.length + 1)
    gap
    return t) s.toList

end Harvesting.Ron
