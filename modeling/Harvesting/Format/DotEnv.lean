import Harvesting.Settings.Environment
import Harvesting.Text.Blank

/-!
# Files of variables

Lines `NAME=value`, with comments, quotes, escapes and references to other variables.

* `DotEnv.logicalLines` — the lines of a file; a quoted value may run over several;
* `DotEnv.value?` — what the text after the sign of equality stands for;
* `DotEnv.read` — the variables of a file, up to its first line that cannot be read. Of two lines for
  one name the first one counts, and a variable that is set already counts before both.
-/

namespace Harvesting.DotEnv

/-! ### Lines -/

/-- Whether a line so far is inside a text in quotes. -/
structure Quotes where
  strong : Bool
  weak : Bool
  escaped : Bool

def Quotes.none : Quotes := ⟨false, false, false⟩

/-- The quotes that are open after one more character. -/
def Quotes.step (q : Quotes) (c : Char) : Quotes :=
  if q.escaped then { q with escaped := false }
  else if q.strong then { q with strong := c ≠ '\'' }
  else if c = '\\' then { q with escaped := true }
  else if q.weak then { q with weak := c ≠ '"' }
  else { q with strong := c = '\'', weak := c = '"' }

def isComment (cs : List Char) : Bool := (Text.trimStart cs).head? = some '#'

/-- The lines of a text; a line that ends inside quotes goes on in the next one. -/
def logicalLines (current : List Char) (q : Quotes) : List Char → List (List Char)
  | [] => if current = [] then [] else [current.reverse]
  | '\r' :: '\n' :: r | '\n' :: r =>
    if (q.strong ∨ q.weak) ∧ ¬ isComment current.reverse then logicalLines ('\n' :: current) q r
    else current.reverse :: logicalLines [] .none r
  | c :: r => logicalLines (c :: current) (q.step c) r

/-! ### Values -/

/-- What a reference to a variable is read as. -/
inductive Mode where
  | plain
  /-- After a dollar sign. -/
  | name (read : List Char)
  /-- After a dollar sign and a brace. -/
  | braced (read : List Char)

/-- A value while it is read. -/
structure Reading where
  output : List Char
  quotes : Quotes
  mode : Mode
  /-- The value is over; only a comment may follow. -/
  finished : Bool

def escapedChar? : Char → Option Char
  | '\\' => some '\\'
  | '\'' => some '\''
  | '"' => some '"'
  | '$' => some '$'
  | ' ' => some ' '
  | 'n' => some '\n'
  | _ => none

/-- The letters and digits of the names of variables in references. -/
def isNameChar (c : Char) : Bool := c.isAlphanum || 127 < c.toNat

/-- The text with the value of a variable added. -/
def substitute (e : Environment) (name output : List Char) : List Char :=
  output ++ ((e.get? (String.ofList name.reverse)).getD "").toList

def Reading.plain (s : Reading) (c : Char) : Option Reading :=
  let push (c : Char) : Option Reading := some { s with output := s.output ++ [c] }
  if c = '$' then some { s with mode := .name [] }
  else if s.quotes.weak then
    if c = '"' then some { s with quotes := .none }
    else if c = '\\' then some { s with quotes := { s.quotes with escaped := true } }
    else push c
  else if c = '\'' then some { s with quotes := { s.quotes with strong := true } }
  else if c = '"' then some { s with quotes := { s.quotes with weak := true } }
  else if c = '\\' then some { s with quotes := { s.quotes with escaped := true } }
  else if c = ' ' ∨ c = '\t' then some { s with finished := true }
  else push c

def Reading.inName (e : Environment) (s : Reading) (name : List Char) (braced : Bool) (c : Char) :
    Option Reading :=
  if isNameChar c then some { s with mode := if braced then .braced (c :: name) else .name (c :: name) }
  else if braced then
    if c = '\x7d' then some { s with mode := .plain, output := substitute e name s.output }
    else some { s with mode := .braced (c :: name) }
  else if c = '\x7b' ∧ name = [] then some { s with mode := .braced [] }
  else
    let output := substitute e name s.output
    if c = '$' then some { s with mode := .name [], output }
    else some { s with mode := .plain, output := output ++ [c] }

/-- The value after one more character. -/
def Reading.step (e : Environment) (s : Reading) (c : Char) : Option Reading :=
  if s.quotes.escaped then
    (escapedChar? c).map fun c =>
      { s with output := s.output ++ [c], quotes := { s.quotes with escaped := false } }
  else if s.quotes.strong then
    if c = '\'' then some { s with quotes := .none } else some { s with output := s.output ++ [c] }
  else match s.mode with
    | .plain => s.plain c
    | .name read => s.inName e read false c
    | .braced read => s.inName e read true c

/-- What follows the end of a value: blanks, and possibly a comment. -/
def endsWell : List Char → Bool
  | [] => true
  | c :: r => if c = ' ' ∨ c = '\t' then endsWell r else c = '#'

/-- The value after the rest of its text. -/
def Reading.run (e : Environment) (s : Reading) : List Char → Option Reading
  | [] => some s
  | c :: r =>
    if s.finished then if endsWell (c :: r) then some s else none
    else do (← s.step e c).run e r

def value? (e : Environment) (cs : List Char) : Option String := do
  let s ← Reading.run e ⟨[], .none, .plain, false⟩ cs
  if s.quotes.strong ∨ s.quotes.weak then none
  else match s.mode with
    | .plain => some (String.ofList s.output)
    | .name read => some (String.ofList (substitute e read s.output))
    | .braced _ => none

/-! ### Files -/

/-- The name at the start of a line, and the rest without blanks in front. -/
def name? (cs : List Char) : Option (List Char × List Char) :=
  match cs with
  | c :: _ =>
    if c.isAlpha ∨ c = '_' then
      let isNameChar (c : Char) : Bool := c.isAlphanum || c = '_' || c = '.'
      some (cs.takeWhile isNameChar, Text.trimStart (cs.dropWhile isNameChar))
    else none
  | [] => none

/-- The text after the sign of equality. -/
def assigned? : List Char → Option (List Char)
  | '=' :: r => some (Text.trimStart r)
  | _ => none

/-- A variable and its value; none for a line that says nothing. -/
def line (e : Environment) (cs : List Char) : Option (Option (String × String)) := do
  let cs := Text.trim cs
  if cs = [] ∨ isComment cs then return none
  let (name, r) ← name? cs
  let assignment (name r : List Char) : Option (List Char × List Char) := do return (name, ← assigned? r)
  let exported : Option (List Char × List Char) := do
    if name ≠ "export".toList then failure
    let (name, r) ← name? r
    assignment name r
  let (name, r) ← (assignment name r).or exported
  let v ← if r = [] ∨ isComment r then some "" else value? e r
  return some (String.ofList name, v)

/-- The environment with a variable that was not set before. -/
def set (e : Environment) (name value : String) : Environment := e.orElse ⟨[(name, value)]⟩

/-- The environment after the lines of a file. -/
def load (e : Environment) : List (List Char) → Environment
  | [] => e
  | cs :: r =>
    match line e cs with
    | none => e
    | some none => load e r
    | some (some (name, value)) => load (set e name value) r

def read (e : Environment) (file : String) : Environment :=
  let cs := match file.toList with
    | '\uFEFF' :: r => r
    | cs => cs
  load e (logicalLines [] .none cs)

end Harvesting.DotEnv
