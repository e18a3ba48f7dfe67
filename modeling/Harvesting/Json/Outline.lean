import Harvesting.Json.Reader

/-!
# Outlines

Reading a part of a JSON text and only skipping the rest. An outline has the lists and objects of a
text, with its strings and numbers as they are written; what is skipped is held to the grammar alone, so
there a number may be out of range, a surrogate may stand alone, bytes may be no text, and lists and
objects may be nested to any depth. What is wanted is then read out of the outline in earnest.

* `Json.Outline` — the type, with one character for each byte;
* `Json.outline?` — the outline of a body;
* `Json.Outline.members?`, `Json.Outline.named?`, `Json.Outline.items?` — one level of it;
* `Json.Outline.value?` — the value it stands for.
-/

namespace Harvesting.Json

/-- A JSON value whose strings and numbers stand as they are written. -/
inductive Outline where
  /-- A number, `true`, `false` or `null`. -/
  | literal (written : List Char)
  /-- A string with its quotes and escapes. -/
  | string (written : List Char)
  | list (items : List Outline)
  | object (members : List (List Char × Outline))

namespace Outline

/-! ### Pieces -/

/-- The tokens of an outline. -/
inductive Piece where
  | openList
  | closeList
  | openObject
  | closeObject
  | comma
  | colon
  | string (written : List Char)
  | literal (written : List Char)

/-- The length of the rest of a string after its quote. Escaped surrogates need not come in pairs. -/
def skipString : List Char → Option Nat
  | [] => none
  | '"' :: _ => some 1
  | '\\' :: 'u' :: a :: b :: c :: d :: r => do
    let _ ← hex4? a b c d
    return 6 + (← skipString r)
  | '\\' :: c :: r => do
    let _ ← shortEscape? c
    return 2 + (← skipString r)
  | c :: r => do
    guard (32 ≤ c.toNat)
    return 1 + (← skipString r)

/-- The length of a number or word. -/
def skipLiteral (cs : List Char) : Option Nat :=
  match cs with
  | 'n' :: r => (word 1 "ull".toList r).toOption
  | 't' :: r => (word 1 "rue".toList r).toOption
  | 'f' :: r => (word 1 "alse".toList r).toOption
  | cs => ((numeral cs).map (·.length)).toOption

/-- The piece that begins at a character, and its length. -/
def pieceAt (cs : List Char) : Option (Piece × Nat) :=
  match cs with
  | '[' :: _ => some (.openList, 1)
  | ']' :: _ => some (.closeList, 1)
  | '\x7b' :: _ => some (.openObject, 1)
  | '\x7d' :: _ => some (.closeObject, 1)
  | ',' :: _ => some (.comma, 1)
  | ':' :: _ => some (.colon, 1)
  | '"' :: r => (skipString r).map fun n => (.string (cs.take (n + 1)), n + 1)
  | cs => (skipLiteral cs).map fun n => (.literal (cs.take n), n)

/-- The pieces of a text. -/
def pieces? (cs : List Char) : Option (List Piece) :=
  match cs with
  | [] => some []
  | c :: r =>
    if isSpace c then pieces? r
    else do
      let (p, n) ← pieceAt (c :: r)
      return p :: (← pieces? (r.drop (n - 1)))
termination_by cs.length
decreasing_by all_goals (simp only [List.length_cons, List.length_drop]; omega)

/-! ### The machine -/

/-- A list or object that is still open, the last item or member first. -/
inductive Frame where
  | list (items : List Outline)
  /-- With the name of the member being read. -/
  | object (members : List (List Char × Outline)) (name : List Char)

/-- What may come next. -/
inductive Expect where
  | value
  /-- A value or the end of a list that was just opened. -/
  | firstItem
  /-- A name or the end of an object that was just opened. -/
  | firstName
  | name
  | colon
  /-- A comma or the end of the innermost list or object, after a complete value. -/
  | next (o : Outline)

/-- The state of the machine: what may come next, and what is open, the innermost first. -/
structure Machine where
  expect : Expect
  stack : List Frame

/-- Where a value may stand. -/
def Expect.isValue : Expect → Bool
  | .value | .firstItem => true
  | _ => false

/-- Where a name may stand. -/
def Expect.isName : Expect → Bool
  | .name | .firstName => true
  | _ => false

def Machine.step? (m : Machine) (p : Piece) : Option Machine :=
  match p, m.expect, m.stack with
  | .comma, .next o, .list items :: rest => some ⟨.value, .list (o :: items) :: rest⟩
  | .comma, .next o, .object ms n :: rest => some ⟨.name, .object ((n, o) :: ms) [] :: rest⟩
  | .closeList, .next o, .list items :: rest => some ⟨.next (.list (o :: items).reverse), rest⟩
  | .closeList, .firstItem, _ :: rest => some ⟨.next (.list []), rest⟩
  | .closeObject, .next o, .object ms n :: rest => some ⟨.next (.object ((n, o) :: ms).reverse), rest⟩
  | .closeObject, .firstName, _ :: rest => some ⟨.next (.object []), rest⟩
  | .colon, .colon, stack => some ⟨.value, stack⟩
  | .openList, e, stack => if e.isValue then some ⟨.firstItem, .list [] :: stack⟩ else none
  | .openObject, e, stack => if e.isValue then some ⟨.firstName, .object [] [] :: stack⟩ else none
  | .literal w, e, stack => if e.isValue then some ⟨.next (.literal w), stack⟩ else none
  | .string w, e, .object ms n :: rest =>
    if e.isName then some ⟨.colon, .object ms w :: rest⟩
    else if e.isValue then some ⟨.next (.string w), .object ms n :: rest⟩ else none
  | .string w, e, stack => if e.isValue then some ⟨.next (.string w), stack⟩ else none
  | _, _, _ => none

/-- The outline that is complete when the text ends. -/
def Machine.outline? (m : Machine) : Option Outline :=
  match m.expect, m.stack with
  | .next o, [] => some o
  | _, _ => none

end Outline

/-- The outline of a body. -/
def outline? (body : List UInt8) : Option Outline := do
  let ps ← Outline.pieces? (body.map fun b => Char.ofNat b.toNat)
  (← ps.foldlM Outline.Machine.step? ⟨.value, []⟩).outline?

namespace Outline

/-! ### What it stands for -/

/-- What a string, number or word stands for, if its bytes are text. -/
def leaf? (written : List Char) : Option Json := do
  let text ← String.fromUTF8? (ByteArray.mk (written.map fun c => c.toNat.toUInt8).toArray)
  match (tokenAt Position.start text.toList).1 with
  | .string s => some (.string s)
  | .literal v => some v
  | _ => none

/-- The text that a string stands for. -/
def text? (written : List Char) : Option String := do (← leaf? written).asString?

mutual

/-- The value with the members of objects as they are written, nested `room` deep at most. -/
def value? (room : Nat) : Outline → Option Json
  | .literal w => leaf? w
  | .string w => leaf? w
  | .list xs => if room = 0 then none else (values? (room - 1) xs).map .array
  | .object ms => if room = 0 then none else (memberValues? (room - 1) ms).map .object

def values? (room : Nat) : List Outline → Option (List Json)
  | [] => some []
  | o :: r => do return (← value? room o) :: (← values? room r)

def memberValues? (room : Nat) : List (List Char × Outline) → Option (List (String × Json))
  | [] => some []
  | (n, o) :: r => do return (← text? n, ← value? room o) :: (← memberValues? room r)

end

def items? : Outline → Option (List Outline)
  | .list xs => some xs
  | _ => none

/-- The members of an object with their names. -/
def named? : Outline → Option (List (String × Outline))
  | .object ms => ms.mapM fun m => return (← text? m.1, m.2)
  | _ => none

/--
The members of some names, each given once at most, whatever else the object has; a list gives them in
order and nothing else.
-/
def members? (names : List String) : Outline → Option (List (Option Outline))
  | .object ms => do
    let ms ← named? (.object ms)
    guard (names.all fun n => (ms.filter (·.1 = n)).length ≤ 1)
    return names.map fun n => (ms.find? (·.1 = n)).map (·.2)
  | .list xs => if xs.length ≤ names.length then some ((List.range names.length).map (xs[·]?)) else none
  | _ => none

end Outline

end Harvesting.Json
