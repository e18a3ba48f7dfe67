import Harvesting.Number.Literal
import Harvesting.Tree.Basic

/-!
# Settings in JSON5

JSON with comments, trailing commas, names without quotation marks, texts in apostrophes and more
forms of numbers.

* `Json5.read?` — the tree of a text.
-/

namespace Harvesting.Json5

open Text Reader

def isGap (c : Char) : Bool := " \t\n\r\x0b\x0c".toList.contains c || c = '\u00A0' || c = '\uFEFF' ||
  c = '\u2028' || c = '\u2029'

def isLineEnd (c : Char) : Bool := c = '\n' || c = '\r' || c = '\u2028' || c = '\u2029'

/-- What follows the first end of a comment. -/
def afterComment? : List Char → Option (List Char)
  | '*' :: '/' :: r => some r
  | _ :: r => afterComment? r
  | [] => none

def comment : Reader Unit
  | '/' :: '/' :: r => some ((), r.dropWhile (!isLineEnd ·))
  | '/' :: '*' :: r => (afterComment? r).map fun r => ((), r)
  | _ => none

def gap : Reader Unit := do
  let _ ← many (oneOf [comment, do { let _ ← nonempty isGap }])

/-- The character of so many hexadecimal digits. -/
def codeUnit (n : Nat) : Reader Nat := fun cs =>
  let ds := cs.take n
  if ds.length = n ∧ ds.all fun c => (Literal.digitIn? 16 c).isSome then
    some (Literal.numeralIn 16 ds, cs.drop n)
  else none

def escaped : Reader (List Char) := do
  match ← one (fun _ => true) with
  | 'b' => return ['\x08']
  | 'f' => return ['\x0c']
  | 'n' => return ['\n']
  | 'r' => return ['\r']
  | 't' => return ['\t']
  | 'v' => return ['\x0b']
  | '0' => return ['\x00']
  | 'x' => return [Char.ofNat (← codeUnit 2)]
  | 'u' =>
    let hi ← codeUnit 4
    if 0xD800 ≤ hi ∧ hi < 0xDC00 then
      keyword "\\u"
      let lo ← codeUnit 4
      require (0xDC00 ≤ lo ∧ lo < 0xE000)
      return [Char.ofNat (0x10000 + (hi - 0xD800) * 0x400 + (lo - 0xDC00))]
    else
      require hi.isValidChar
      return [Char.ofNat hi]
  | '\r' =>
    let _ ← maybe (char '\n')
    return []
  | c => if isLineEnd c then return [] else if c.isDigit then refuse else return [c]

def quoted (mark : Char) : Reader String := do
  char mark
  let parts ← many (oneOf [do { char '\\'; escaped },
    do { return [← one fun c => c ≠ mark && c ≠ '\\' && c ≠ '\n' && c ≠ '\r'] }])
  char mark
  return String.ofList parts.flatten

def text : Reader String := oneOf [quoted '"', quoted '\'']

def name : Reader String := do
  let isStart (c : Char) : Bool := c.isAlpha || c = '_' || c = '$' || 127 < c.toNat
  let first ← one isStart
  let rest ← run fun c => isStart c || c.isDigit
  return String.ofList (first :: rest)

/-- A number without a sign. -/
def unsigned (negative : Bool) : Reader Scalar := oneOf [
  do
    char '0'
    let _ ← one fun c => c = 'x' || c = 'X'
    let ds ← nonempty fun c => (Literal.digitIn? 16 c).isSome
    let n := Literal.withSign negative (Literal.numeralIn 16 ds)
    require (Literal.isWhole n)
    return .int n,
  do
    keyword "Infinity"
    return .real (.infinite negative),
  do
    keyword "NaN"
    return .real .nan,
  do
    let cs ← rest
    let (before, after) ← Literal.significand
    require (before.head? ≠ some '0' ∨ before.length = 1)
    let e ← Literal.exponent
    let used := cs.length - (← rest).length
    let n := Literal.withSign negative (Decimal.numeral before)
    if used = before.length ∧ Literal.isWhole n then return .int n
    else return .real (.ofDecimal negative (Decimal.numeral (before ++ after)) (e - after.length))]

/-- A value that holds no values. -/
def scalar : Reader Scalar := oneOf [
  .string <$> text,
  do { keyword "null"; return .null },
  do { keyword "true"; return .bool true },
  do { keyword "false"; return .bool false },
  do { unsigned (← Literal.sign) }]

/-- Items between brackets, a comma after each but possibly the last. -/
def items {α : Type} (opener closer : Char) (item : Reader α) : Reader (List α) := do
  char opener
  gap
  let xs ← maybe (separated (do { gap; char ','; gap }) item)
  gap
  if xs.isSome then
    let _ ← maybe (char ',')
  gap
  char closer
  return xs.getD []

def member (item : Reader Tree) : Reader (String × Tree) := do
  let k ← oneOf [text, name]
  gap
  char ':'
  gap
  return (k, ← item)

def value (origin : Option String) : (depth : Nat) → Reader Tree
  | 0 => refuse
  | depth + 1 => oneOf [
    .table origin <$> items '\x7b' '\x7d' (member (value origin depth)),
    .list origin <$> items '[' ']' (value origin depth),
    .scalar origin <$> scalar]

def read? (origin : Option String) (s : String) : Option Tree :=
  whole? (do
    gap
    let t ← value origin (s.length + 1)
    gap
    return t) s.toList

end Harvesting.Json5
