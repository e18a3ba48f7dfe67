import Harvesting.Markup.Fault
import Harvesting.Number.Literal
import Harvesting.Text.Utf8

/-!
# Entities

Characters that stand for themselves only when they are escaped.

* `unescape` — a text with its entities replaced: the five predefined ones and references to a code
  point, decimal or hexadecimal;
* `escape` — a text whose markup characters are written as entities.

Positions in faults count bytes of the escaped text.
-/

namespace Harvesting.Markup

def predefined? (name : List Char) : Option Char :=
  match String.ofList name with
  | "lt" => some '<'
  | "gt" => some '>'
  | "amp" => some '&'
  | "apos" => some '\''
  | "quot" => some '"'
  | _ => none

/-- A numeral read digit by digit; the first fault counts. -/
def codeFrom (base acc : Nat) : List Char → Except ReferenceFault Nat
  | [] => .ok acc
  | c :: r =>
    match Literal.digitIn? base c with
    | none => .error .notDigit
    | some d => if base * acc + d < Nat.pow 2 32 then codeFrom base (base * acc + d) r else .error .tooLarge

/-- The number that a numeral writes. -/
def code (base : Nat) : List Char → Except ReferenceFault Nat
  | [] => .error .noDigits
  | c :: r => if c = '+' ∨ c = '-' then .error .sign else codeFrom base 0 (c :: r)

/-- The character of a code point. -/
def characterOf (n : Nat) : Except ReferenceFault Char :=
  if n = 0 then .error .null
  else if n.isValidChar then .ok (Char.ofNat n)
  else .error (.noCharacter n)

/-- The character that a reference names; `number` follows the number sign. -/
def referenced (number : List Char) : Except ReferenceFault Char := do
  let n ← match number with
    | 'x' :: digits => code 16 digits
    | digits => code 10 digits
  characterOf n

/-- The character that the entity `name` at byte `start` stands for. -/
def resolve (start : Nat) (name : List Char) : Except Fault Char :=
  match name with
  | '#' :: number => (referenced number).mapError .reference
  | name =>
    match predefined? name with
    | some c => .ok c
    | none => .error (.entity start (start + Utf8.length name) name)

/-- What stands before the next ampersand or semicolon, and the text from there. -/
def untilMark (cs : List Char) : List Char × List Char :=
  (cs.takeWhile fun c => c ≠ '&' && c ≠ ';', cs.dropWhile fun c => c ≠ '&' && c ≠ ';')

/-- The text with its entities replaced, from byte `offset` of a text of `total` bytes. -/
def unescapeFrom (total offset : Nat) : List Char → Except Fault (List Char)
  | [] => .ok []
  | c :: r =>
    if c = '&' then
      match h : (untilMark r).2 with
      | ';' :: rest => do
        let name := (untilMark r).1
        let c ← resolve (offset + 1) name
        return c :: (← unescapeFrom total (offset + 2 + Utf8.length name) rest)
      | _ => .error (.ampersand offset total)
    else do return c :: (← unescapeFrom total (offset + c.utf8Size) r)
termination_by cs => cs.length
decreasing_by
  all_goals simp_wf
  have : ((untilMark r).2).length ≤ r.length := (List.dropWhile_sublist _).length_le
  simp [h] at this
  omega

/-- The text with its entities replaced. -/
def unescape (cs : List Char) : Except Fault (List Char) := unescapeFrom (Utf8.length cs) 0 cs

/-- A character written so that it is no markup. -/
def escapeChar (c : Char) : List Char :=
  if c = '&' then "&amp;".toList
  else if c = '<' then "&lt;".toList
  else if c = '>' then "&gt;".toList
  else [c]

/-- A text written so that it holds no markup. -/
def escape (cs : List Char) : List Char := cs.flatMap escapeChar

end Harvesting.Markup
