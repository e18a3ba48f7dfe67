/-!
# Readers

A reader takes a value from the left of a text, or refuses and takes nothing.

* `Reader` — a state transformer over the text that is left, so that readers follow each other in
  `do` blocks;
* `Reader.char`, `keyword`, `run`, `nonempty` — single characters, words, and runs of a class;
* `Reader.oneOf`, `optional`, `many`, `separated` — choices and repetitions;
* `Reader.whole?` — the value of a whole text.
-/

namespace Harvesting.Text

/-- Reads a value from the left of a text. -/
abbrev Reader := StateT (List Char) Option

namespace Reader

def refuse {α : Type} : Reader α := fun _ => none

/-- The next character, which is left in place. -/
def peek : Reader (Option Char) := fun cs => some (cs.head?, cs)

def rest : Reader (List Char) := fun cs => some (cs, cs)

def one (p : Char → Bool) : Reader Char
  | c :: r => if p c then some (c, r) else none
  | [] => none

def char (c : Char) : Reader Unit := do
  let _ ← one (· = c)

def keyword (word : String) : Reader Unit := fun cs =>
  if word.toList.isPrefixOf cs then some ((), cs.drop word.toList.length) else none

/-- The characters of a class that come next, possibly none. -/
def run (p : Char → Bool) : Reader (List Char) := fun cs => some (cs.takeWhile p, cs.dropWhile p)

/-- At least one character of a class. -/
def nonempty (p : Char → Bool) : Reader (List Char) := do
  let cs ← run p
  if cs = [] then refuse else return cs

def require (condition : Bool) : Reader Unit := if condition then pure () else refuse

/-- What is there, as far as it is there. -/
def ofOption {α : Type} : Option α → Reader α
  | some a => pure a
  | none => refuse

/-- The first reader that does not refuse. -/
def oneOf {α : Type} (readers : List (Reader α)) : Reader α := fun cs => readers.findSome? (· cs)

/-- The value, or none where the reader refuses. -/
def maybe {α : Type} (r : Reader α) : Reader (Option α) := fun cs =>
  match r cs with
  | some (a, rest) => some (some a, rest)
  | none => some (none, cs)

/-- `many` with a bound on the number of values. -/
def atMost {α : Type} (r : Reader α) : Nat → List Char → List α × List Char
  | 0, cs => ([], cs)
  | n + 1, cs =>
    match r cs with
    | none => ([], cs)
    | some (a, rest) =>
      if rest.length < cs.length then
        let (as, rest) := atMost r n rest
        (a :: as, rest)
      else ([], cs)

/-- As many values as can be read, each of at least one character. -/
def many {α : Type} (r : Reader α) : Reader (List α) := fun cs => some (atMost r cs.length cs)

/-- At least one value, with separators between them. -/
def separated {α : Type} (separator : Reader Unit) (r : Reader α) : Reader (List α) := do
  let first ← r
  let others ← many do
    separator
    r
  return first :: others

def finish : Reader Unit
  | [] => some ((), [])
  | _ => none

/-- The value of a whole text. -/
def whole? {α : Type} (r : Reader α) (cs : List Char) : Option α :=
  match r cs with
  | some (a, []) => .some a
  | _ => none

end Reader

end Harvesting.Text
