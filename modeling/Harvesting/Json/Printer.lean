import Harvesting.Json.Value

/-!
# Writing JSON

* `Json.compact` — without any blanks;
* `Json.pretty` — one item or member a line, two blanks per level, empty arrays and objects closed
  at once.

Strings escape the quote, the backslash and the control characters below U+0020; all other
characters stand for themselves.
-/

namespace Harvesting.Json

/-- Floating-point numbers keep a point or an exponent, so that they read back as such. -/
def numberStyle : Shortest.Style := ⟨-5, 15, true, "+"⟩

def hexDigit (n : Nat) : Char := if n < 10 then Char.ofNat (48 + n) else Char.ofNat (87 + n)

/-- How one character of a string is written. -/
def escapeChar (c : Char) : List Char :=
  if c = '"' then ['\\', '"']
  else if c = '\\' then ['\\', '\\']
  else if c.toNat = 8 then ['\\', 'b']
  else if c.toNat = 12 then ['\\', 'f']
  else if c = '\n' then ['\\', 'n']
  else if c = '\r' then ['\\', 'r']
  else if c = '\t' then ['\\', 't']
  else if c.toNat < 32 then ['\\', 'u', '0', '0', hexDigit (c.toNat / 16), hexDigit (c.toNat % 16)]
  else [c]

/-- The characters of a string between its quotes. -/
def escape (cs : List Char) : List Char := cs.flatMap escapeChar

def quote (s : String) : List Char := '"' :: escape s.toList ++ ['"']

def realText (x : Binary64) : List Char :=
  if x.isFinite then (Shortest.text numberStyle x).toList else "null".toList

def commaSeparated : List (List Char) → List Char
  | [] => []
  | [x] => x
  | x :: y :: r => x ++ ',' :: commaSeparated (y :: r)

mutual

def compactChars : Json → List Char
  | .null => "null".toList
  | .bool true => "true".toList
  | .bool false => "false".toList
  | .int n => (toString n).toList
  | .real x => realText x
  | .string s => quote s
  | .array xs => '[' :: commaSeparated (compactItems xs) ++ [']']
  | .object ms => '\x7b' :: commaSeparated (compactMembers ms) ++ ['\x7d']

def compactItems : List Json → List (List Char)
  | [] => []
  | x :: r => compactChars x :: compactItems r

def compactMembers : List (String × Json) → List (List Char)
  | [] => []
  | (k, v) :: r => (quote k ++ ':' :: compactChars v) :: compactMembers r

end

def compact (v : Json) : String := String.ofList (compactChars v)

/-- A new line and the blanks of a level. -/
def newline (level : Nat) : List Char := '\n' :: List.replicate (2 * level) ' '

/-- Lines of one level between brackets, with commas at their ends. -/
def block (opening closing : Char) (level : Nat) (lines : List (List Char)) : List Char :=
  match lines with
  | [] => [opening, closing]
  | _ =>
    opening :: commaSeparated (lines.map (newline (level + 1) ++ ·)) ++ newline level ++ [closing]

mutual

/-- The value with one item or member a line, its first line already indented. -/
def prettyChars (level : Nat) : Json → List Char
  | .array xs => block '[' ']' level (prettyItems (level + 1) xs)
  | .object ms => block '\x7b' '\x7d' level (prettyMembers (level + 1) ms)
  | v => compactChars v

def prettyItems (level : Nat) : List Json → List (List Char)
  | [] => []
  | x :: r => prettyChars level x :: prettyItems level r

def prettyMembers (level : Nat) : List (String × Json) → List (List Char)
  | [] => []
  | (k, v) :: r => (quote k ++ ':' :: ' ' :: prettyChars level v) :: prettyMembers level r

end

/-- The value with one item or member a line. -/
def pretty (v : Json) : String := String.ofList (prettyChars 0 v)

end Harvesting.Json
