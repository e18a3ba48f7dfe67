import Harvesting.Number.Literal
import Harvesting.Text.Blank
import Harvesting.Tree.Basic

/-!
# Settings in sections

Lines `key = value` under headers `[section]`; all values are texts.

* `Ini.read?` — the table of a text. Keys before the first header belong to the table itself; a later
  section of the same name replaces an earlier one.

A colon may stand for the sign of equality, and lines that start with `;` or `#` are comments. Values
may be quoted, and a backslash escapes the character after it.
-/

namespace Harvesting.Ini

open Text Reader

def isLineEnd (c : Char) : Bool := c = '\n' || c = '\r'

/-- The character that a letter after a backslash stands for. -/
def escapedChar : Char → Char
  | '0' => '\x00'
  | 'a' => '\x07'
  | 'b' => '\x08'
  | 't' => '\t'
  | 'r' => '\r'
  | 'n' => '\n'
  | c => c

/-- One character that is not in `stops`, with escapes resolved; an escaped end of line is none. -/
def element (stops : Char → Bool) : Reader (List Char)
  | '\\' :: '\n' :: r => some ([], r)
  | '\\' :: 'x' :: a :: b :: c :: d :: r =>
    let ds := [a, b, c, d]
    let code := Literal.numeralIn 16 ds
    if (ds.all fun c => (Literal.digitIn? 16 c).isSome) ∧ code.isValidChar then some ([Char.ofNat code], r)
    else none
  | '\\' :: c :: r => some ([escapedChar c], r)
  | c :: r => if stops c ∨ c = '\\' then none else some ([c], r)
  | [] => none

def upTo (stops : Char → Bool) : Reader (List Char) := List.flatten <$> many (element stops)

def gap : Reader Unit := do
  let _ ← run fun c => isBlank c && !isLineEnd c

/-- A value in quotes, and what follows it on the line. -/
def quoted (mark : Char) : Reader (List Char) := do
  char mark
  let inside ← upTo (· = mark)
  char mark
  return inside ++ (← upTo isLineEnd)

def value : Reader String := do
  gap
  let cs ← oneOf [quoted '"', quoted '\'', upTo isLineEnd]
  return String.ofList (trim cs)

/-- One element of a text. -/
inductive Line where
  | comment
  | section_ (name : String)
  | pair (key value : String)

def line : Reader Line := do
  let _ ← run isBlank
  match ← peek with
  | some ';' | some '#' =>
    let _ ← run fun c => !isLineEnd c
    return .comment
  | some '[' =>
    char '['
    let name ← upTo fun c => c = ']' || isLineEnd c
    char ']'
    return .section_ (String.ofList (trim name))
  | some '=' | some ':' => refuse
  | some _ =>
    let key ← upTo fun c => c = '=' || c = ':'
    let _ ← one fun c => c = '=' || c = ':'
    return .pair (String.ofList (trim key)) (← value)
  | none => refuse

/-- A table while it is read: its own keys, and the sections, the last one first. -/
structure Sections where
  own : List (String × Tree)
  sections : List (String × List (String × Tree))

/-- The table after one more line. -/
def Sections.add (origin : Option String) (s : Sections) : Line → Sections
  | .comment => s
  | .section_ name => { s with sections := (name, []) :: s.sections }
  | .pair k v =>
    let member := (k, Tree.scalar origin (.string v))
    match s.sections with
    | [] => { s with own := s.own ++ [member] }
    | (name, ms) :: r => { s with sections := (name, ms ++ [member]) :: r }

def read? (origin : Option String) (s : String) : Option Tree := do
  let ls ← whole? (do
    let ls ← many line
    let _ ← run isBlank
    return ls) s.toList
  let s := ls.foldl (Sections.add origin) ⟨[], []⟩
  return .table origin (s.own ++ s.sections.reverse.map fun (name, ms) => (name, .table origin ms))

end Harvesting.Ini
