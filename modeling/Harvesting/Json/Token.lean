import Harvesting.Json.Value
import Harvesting.Text.Utf8

/-!
# JSON tokens

The first half of reading JSON: a text becomes a list of tokens, each with the position where it
starts. A token that is broken off or malformed ends the list and carries its own fault, so that the
second half decides whether it is reached before another fault.

* `Json.Fault`, `Json.Fault.message` — what can be wrong, and its wording;
* `Json.Position` — line and column, columns counted in bytes;
* `Json.Token`, `Json.tokens` — the tokens of a text.
-/

namespace Harvesting.Json

/-- What can be wrong with a JSON text. -/
inductive Fault where
  | endInList
  | endInObject
  | endInString
  | endInValue
  | expectedColon
  | expectedListEnd
  | expectedObjectEnd
  | expectedWord
  | expectedValue
  | keyNotString
  | invalidEscape
  | invalidNumber
  | numberOutOfRange
  | controlCharacter
  | loneSurrogate
  | escapeCutOff
  | trailingComma
  | trailingCharacters
  | tooDeep
  deriving Repr, DecidableEq

def Fault.message : Fault → String
  | .endInList => "EOF while parsing a list"
  | .endInObject => "EOF while parsing an object"
  | .endInString => "EOF while parsing a string"
  | .endInValue => "EOF while parsing a value"
  | .expectedColon => "expected `:`"
  | .expectedListEnd => "expected `,` or `]`"
  | .expectedObjectEnd => "expected `,` or `\x7d`"
  | .expectedWord => "expected ident"
  | .expectedValue => "expected value"
  | .keyNotString => "key must be a string"
  | .invalidEscape => "invalid escape"
  | .invalidNumber => "invalid number"
  | .numberOutOfRange => "number out of range"
  | .controlCharacter => "control character (\\u0000-\\u001F) found while parsing a string"
  | .loneSurrogate => "lone leading surrogate in hex escape"
  | .escapeCutOff => "unexpected end of hex escape"
  | .trailingComma => "trailing comma"
  | .trailingCharacters => "trailing characters"
  | .tooDeep => "recursion limit exceeded"

/-- A place in a text: its line, from 1, and the bytes of that line before it. -/
structure Position where
  line : Nat
  column : Nat
  deriving Repr, DecidableEq

def Position.start : Position := ⟨1, 0⟩

/-- The place after a character. -/
def Position.after (p : Position) (c : Char) : Position :=
  if c = '\n' then ⟨p.line + 1, 0⟩ else ⟨p.line, p.column + c.utf8Size⟩

/-- The place after some characters. -/
def Position.past (p : Position) (cs : List Char) : Position := cs.foldl Position.after p

/-- The place after the first byte of what follows. -/
def Position.peek (p : Position) : List Char → Position
  | [] => p
  | c :: _ => if c = '\n' then ⟨p.line + 1, 0⟩ else ⟨p.line, p.column + 1⟩

/-- A fault and its place. -/
structure Failure where
  fault : Fault
  position : Position
  deriving Repr, DecidableEq

def Failure.message (f : Failure) : String :=
  f.fault.message ++ " at line " ++ toString f.position.line ++ " column " ++ toString f.position.column

/-- The kinds of tokens. -/
inductive TokenKind where
  | openList
  | closeList
  | openObject
  | closeObject
  | comma
  | colon
  /-- A string, with its quotes and escapes resolved. -/
  | string (s : String)
  /-- A number, `true`, `false` or `null`. -/
  | literal (v : Json)
  /-- A string that cannot be read. -/
  | brokenString (f : Failure)
  /-- A number or word that cannot be read. -/
  | brokenLiteral (f : Failure)
  /-- A character that starts no token. -/
  | stray
  deriving Repr

/-- A token with the place of its first character and the place after its first byte. -/
structure Token where
  start : Position
  peek : Position
  kind : TokenKind
  deriving Repr

/-! ### Strings -/

/-- The value of a hexadecimal digit. -/
def hexValue? (c : Char) : Option Nat :=
  if '0' ≤ c ∧ c ≤ '9' then some (c.toNat - 48)
  else if 'a' ≤ c ∧ c ≤ 'f' then some (c.toNat - 87)
  else if 'A' ≤ c ∧ c ≤ 'F' then some (c.toNat - 55)
  else none

/-- The value of four hexadecimal digits. -/
def hex4? (a b c d : Char) : Option Nat := do
  return 4096 * (← hexValue? a) + 256 * (← hexValue? b) + 16 * (← hexValue? c) + (← hexValue? d)

def shortEscape? : Char → Option Char
  | '"' => some '"'
  | '\\' => some '\\'
  | '/' => some '/'
  | 'b' => some (Char.ofNat 8)
  | 'f' => some (Char.ofNat 12)
  | 'n' => some '\n'
  | 'r' => some '\r'
  | 't' => some '\t'
  | _ => none

/-- Reading stopped: the fault, and how many characters were consumed until then. -/
structure Stop where
  fault : Fault
  consumed : Nat
  deriving Repr, DecidableEq

/-- The four digits after `\u`: their value, or where reading stops after `used` characters. -/
def codeUnit (used : Nat) : List Char → Except Stop Nat
  | a :: b :: c :: d :: r =>
    if 4 ≤ Utf8.length (a :: b :: c :: d :: r) then
      match hex4? a b c d with
      | some n => .ok n
      | none => .error ⟨.invalidEscape, used + 4⟩
    else .error ⟨.endInString, used + 4⟩
  | cs => .error ⟨.endInString, used + cs.length⟩

/-- The first half of a surrogate pair. -/
def isLeading (n : Nat) : Bool := 0xD800 ≤ n && n ≤ 0xDBFF

/-- The second half of a surrogate pair. -/
def isTrailing (n : Nat) : Bool := 0xDC00 ≤ n && n ≤ 0xDFFF

/-- What a backslash and the characters after it mean: the character and how many were consumed. -/
def escapeSequence : List Char → Except Stop (Char × Nat)
  | [] => .error ⟨.endInString, 1⟩
  | 'u' :: r => do
    let n ← codeUnit 2 r
    if isTrailing n then .error ⟨.loneSurrogate, 6⟩
    if ¬ isLeading n then return (Char.ofNat n, 6)
    match r.drop 4 with
    | [] => .error ⟨.endInString, 6⟩
    | '\\' :: [] => .error ⟨.endInString, 7⟩
    | '\\' :: 'u' :: r₂ =>
      let n₂ ← codeUnit 8 r₂
      if ¬ isTrailing n₂ then .error ⟨.loneSurrogate, 12⟩
      return (Char.ofNat (0x10000 + (n - 0xD800) * 1024 + (n₂ - 0xDC00)), 12)
    | '\\' :: _ => .error ⟨.escapeCutOff, 8⟩
    | _ => .error ⟨.escapeCutOff, 7⟩
  | c :: _ =>
    match shortEscape? c with
    | some x => .ok (x, 2)
    | none => .error ⟨.invalidEscape, 2⟩

/-- The rest of a string after its quote: its characters and how many were consumed with the end. -/
def stringBody (cs : List Char) : Except Stop (List Char × Nat) :=
  match cs with
  | [] => .error ⟨.endInString, 0⟩
  | '"' :: _ => .ok ([], 1)
  | '\\' :: r =>
    match escapeSequence r with
    | .error s => .error s
    | .ok (x, n) =>
      match stringBody (r.drop (n - 1)) with
      | .error s => .error ⟨s.fault, s.consumed + n⟩
      | .ok (xs, m) => .ok (x :: xs, m + n)
  | c :: r =>
    if c.toNat < 32 then .error ⟨.controlCharacter, 1⟩
    else match stringBody r with
      | .error s => .error ⟨s.fault, s.consumed + 1⟩
      | .ok (xs, m) => .ok (c :: xs, m + 1)
termination_by cs.length
decreasing_by all_goals (simp only [List.length_cons, List.length_drop]; omega)

/-! ### Numbers -/

def maxWhole : Nat := 18446744073709551615

/--
Digits appended to a significand as long as it stays a whole number of 64 bits: the significand, how
many digits went in, and the digits that did not.
-/
def accumulate (significand taken : Nat) : List Char → Nat × Nat × List Char
  | [] => (significand, taken, [])
  | c :: r =>
    let next := 10 * significand + (c.toNat - 48)
    if maxWhole < next then (significand, taken, c :: r) else accumulate next (taken + 1) r

/--
`significand · 10 ^ exponent`, rounded after each step: the significand, the power of ten up to
`10 ^ 308`, and their product or quotient. `none` when the result is too large.
-/
def scaleReal (negative : Bool) (significand : Nat) (exponent : Int) : Option Binary64 :=
  let f := Binary64.ofRatio false significand 1
  let signed (x : Binary64) := if negative then x.neg else x
  let power (k : Nat) := Binary64.ofRatio false (Nat.pow 10 k) 1
  if 0 ≤ exponent then
    if exponent ≤ 308 then
      match f.mul (power exponent.toNat) with
      | .finite s m q => some (signed (.finite s m q))
      | _ => none
    else if significand = 0 then some (signed f) else none
  else
    let down := (-exponent).toNat
    -- at most two steps of 10^308 leave anything
    let first := if 308 < down then f.div (power 308) else f
    let second := if 616 < down then first.div (power 308) else first
    let left := if 616 < down then min (down - 616) 308 else if 308 < down then down - 308 else down
    some (signed (second.div (power left)))

/-- A number as it is written. -/
structure Numeral where
  negative : Bool
  /-- Digits before the point. -/
  whole : List Char
  /-- Digits after the point; empty without one. -/
  places : List Char
  /-- Whether the exponent is negative, and its digits. -/
  exponent : Option (Bool × List Char)
  /-- Number of characters. -/
  length : Nat
  deriving Repr

/-- A sign, if there is one: whether it is a minus, its length and what follows. -/
def signed (plus : Bool) : List Char → Bool × Nat × List Char
  | '-' :: r => (true, 1, r)
  | '+' :: r => if plus then (false, 1, r) else (false, 0, '+' :: r)
  | r => (false, 0, r)

/-- At least one digit after `used` characters, or where reading stops. -/
def someDigits (used : Nat) (cs : List Char) : Except Stop (List Char) :=
  match cs.takeWhile Char.isDigit, cs with
  | [], [] => .error ⟨.endInValue, used⟩
  | [], _ => .error ⟨.invalidNumber, used + 1⟩
  | ds, _ => .ok ds

/-- The numeral that begins at a digit or a minus sign. -/
def numeral (cs : List Char) : Except Stop Numeral := do
  let (negative, used, cs) := signed false cs
  let whole ← someDigits used cs
  if 1 < whole.length ∧ whole.head? = some '0' then .error ⟨.invalidNumber, used + 2⟩
  let used := used + whole.length
  let cs := cs.drop whole.length
  let (places, used, cs) ← match cs with
    | '.' :: r => do
      let places ← someDigits (used + 1) r
      pure (places, used + 1 + places.length, r.drop places.length)
    | r => pure ([], used, r)
  match cs with
  | e :: r =>
    if e = 'e' ∨ e = 'E' then
      let (down, sign, r) := signed true r
      let es ← someDigits (used + 1 + sign) r
      return ⟨negative, whole, places, some (down, es), used + 1 + sign + es.length⟩
    else return ⟨negative, whole, places, none, used⟩
  | [] => return ⟨negative, whole, places, none, used⟩

/-- The largest exponent that is told apart from infinity. -/
def maxExponent : Nat := 2147483647

/--
The value of a numeral. Digits that do not fit into a whole number of 64 bits count as powers of ten
before the point and not at all after it. A numeral without point and exponent is a whole number if
64 bits hold it, negative ones with their sign; minus zero is not one.
-/
def Numeral.value (n : Numeral) : Except Stop Json :=
  let (significand, _, left) := accumulate 0 0 n.whole
  let (significand, placesTaken, _) := accumulate significand 0 n.places
  let base : Int := (left.length : Int) - placesTaken
  let real (exponent : Int) : Except Stop Json :=
    match scaleReal n.negative significand exponent with
    | some x => .ok (.real x)
    | none => .error ⟨.numberOutOfRange, n.length⟩
  match n.exponent with
  | some (down, es) =>
    -- the first digits of the exponent that are too many to tell from infinity
    let excess := (List.range es.length).find? fun k => maxExponent < Text.Decimal.numeral (es.take (k + 1))
    match excess with
    | some k =>
      if significand = 0 ∨ down then .ok (.real (Binary64.zero n.negative))
      else .error ⟨.numberOutOfRange, n.length - es.length + k + 1⟩
    | none =>
      let e : Int := Text.Decimal.numeral es
      real (if down then base - e else base + e)
  | none =>
    if n.places ≠ [] ∨ left ≠ [] then real base
    else if n.negative then
      if significand = 0 ∨ 9223372036854775808 < significand then real 0
      else .ok (.int (-(significand : Int)))
    else .ok (.int significand)

/-- The number that begins at a digit or a minus sign: its value and its length. -/
def number (cs : List Char) : Except Stop (Json × Nat) := do
  let n ← numeral cs
  return (← n.value, n.length)

/-- The letters of a word after its first one: how many were consumed, or where reading stops. -/
def word (used : Nat) : List Char → List Char → Except Stop Nat
  | [], _ => .ok used
  | _ :: _, [] => .error ⟨.endInValue, used⟩
  | x :: xs, c :: cs => if c = x then word (used + 1) xs cs else .error ⟨.expectedWord, used + 1⟩

/-! ### All tokens -/

/-- A literal token and its length, or the broken one. -/
def literal (p : Position) (cs : List Char) (r : Except Stop (Json × Nat)) : TokenKind × Option Nat :=
  match r with
  | .ok (v, n) => (.literal v, some n)
  | .error s => (.brokenLiteral ⟨s.fault, p.past (cs.take s.consumed)⟩, none)

/-- The token that begins at a character; its length is absent if reading ends here. -/
def tokenAt (p : Position) (cs : List Char) : TokenKind × Option Nat :=
  match cs with
  | [] => (.stray, none)
  | '[' :: _ => (.openList, some 1)
  | ']' :: _ => (.closeList, some 1)
  | '\x7b' :: _ => (.openObject, some 1)
  | '\x7d' :: _ => (.closeObject, some 1)
  | ',' :: _ => (.comma, some 1)
  | ':' :: _ => (.colon, some 1)
  | '"' :: r =>
    match stringBody r with
    | .ok (s, n) => (.string (String.ofList s), some (n + 1))
    | .error s => (.brokenString ⟨s.fault, p.past (cs.take (s.consumed + 1))⟩, none)
  | 'n' :: r => literal p cs ((word 1 "ull".toList r).map (Json.null, ·))
  | 't' :: r => literal p cs ((word 1 "rue".toList r).map (Json.bool true, ·))
  | 'f' :: r => literal p cs ((word 1 "alse".toList r).map (Json.bool false, ·))
  | c :: _ => if c.isDigit ∨ c = '-' then literal p cs (number cs) else (.stray, none)

def isSpace (c : Char) : Bool := c = ' ' || c = '\n' || c = '\t' || c = '\r'

/-- The tokens of a text up to the first broken one, and the place where they end. -/
def tokensFrom (p : Position) (cs : List Char) : List Token × Position :=
  match cs with
  | [] => ([], p)
  | c :: r =>
    if isSpace c then tokensFrom (p.after c) r
    else
      match tokenAt p (c :: r) with
      | (kind, none) => ([⟨p, p.peek (c :: r), kind⟩], p)
      | (kind, some n) =>
        let (ts, e) := tokensFrom (p.past ((c :: r).take n)) (r.drop (n - 1))
        (⟨p, p.peek (c :: r), kind⟩ :: ts, e)
termination_by cs.length
decreasing_by all_goals (simp only [List.length_cons, List.length_drop]; omega)

def tokens (s : String) : List Token × Position := tokensFrom Position.start s.toList

end Harvesting.Json
