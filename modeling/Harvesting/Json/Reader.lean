import Harvesting.Json.Token

/-!
# Reading JSON

The second half of reading: the tokens run through a machine with a stack of open lists and objects.
Each step looks at one token, so reading is structural in the list of tokens, and faults come in the
order of the text.

* `Json.Frame`, `Json.Expect` — what is open, and what may come next;
* `Json.run` — the machine;
* `Json.readAsWritten` — the value of a text, or the first failure;
* `Json.read` — the same with the members of objects in the order of their names, each name once.

Lists and objects may be nested 127 deep.
-/

namespace Harvesting.Json

/-- A list or object that is still open. -/
inductive Frame where
  /-- Items read so far, the last one first. -/
  | list (items : List Json)
  /-- Members read so far, the last one first, and the name of the one being read. -/
  | object (members : List (String × Json)) (name : String)

/-- What may come next. -/
inductive Expect where
  | value
  /-- A value or the end of a list that was just opened. -/
  | firstItem
  /-- A name or the end of an object that was just opened. -/
  | firstName
  /-- A name, after a comma; the members read so far. -/
  | name (members : List (String × Json))
  | colon
  /-- A comma or the end of the innermost list or object, after a complete value. -/
  | next (v : Json)

/-- How deep lists and objects may be nested. -/
def maxDepth : Nat := 127

/-- The state of the machine. -/
structure Machine where
  expect : Expect
  stack : List Frame

/-- The machine before the first token. -/
def Machine.start : Machine := ⟨.value, []⟩

/-- What is missing when the text ends. -/
def Machine.atEnd (m : Machine) (e : Position) : Except Failure Json :=
  match m.expect, m.stack with
  | .next v, [] => .ok v
  | .next _, .list _ :: _ => .error ⟨.endInList, e⟩
  | .next _, .object .. :: _ => .error ⟨.endInObject, e⟩
  | .firstItem, _ => .error ⟨.endInList, e⟩
  | .firstName, _ => .error ⟨.endInObject, e⟩
  | .colon, _ => .error ⟨.endInObject, e⟩
  | .value, _ => .error ⟨.endInValue, e⟩
  | .name _, _ => .error ⟨.endInValue, e⟩

def Machine.onValue (m : Machine) (t : Token) : Except Failure Machine :=
  match t.kind with
  | .literal v => .ok ⟨.next v, m.stack⟩
  | .string s => .ok ⟨.next (.string s), m.stack⟩
  | .openList =>
    if maxDepth ≤ m.stack.length then .error ⟨.tooDeep, t.peek⟩
    else .ok ⟨.firstItem, .list [] :: m.stack⟩
  | .openObject =>
    if maxDepth ≤ m.stack.length then .error ⟨.tooDeep, t.peek⟩
    else .ok ⟨.firstName, .object [] "" :: m.stack⟩
  | .brokenString f => .error f
  | .brokenLiteral f => .error f
  | _ => .error ⟨.expectedValue, t.peek⟩

def Machine.onName (m : Machine) (members : List (String × Json)) (t : Token) :
    Except Failure Machine :=
  match t.kind with
  | .string s => .ok ⟨.colon, .object members s :: m.stack.drop 1⟩
  | .brokenString f => .error f
  | _ => .error ⟨.keyNotString, t.peek⟩

def Machine.onNext (v : Json) (stack : List Frame) (t : Token) : Except Failure Machine :=
  match stack with
  | [] => .error ⟨.trailingCharacters, t.peek⟩
  | .list items :: rest =>
    match t.kind with
    | .comma => .ok ⟨.value, .list (v :: items) :: rest⟩
    | .closeList => .ok ⟨.next (.array (v :: items).reverse), rest⟩
    | _ => .error ⟨.expectedListEnd, t.peek⟩
  | .object members name :: rest =>
    match t.kind with
    | .comma => .ok ⟨.name ((name, v) :: members), .object ((name, v) :: members) "" :: rest⟩
    | .closeObject => .ok ⟨.next (.object ((name, v) :: members).reverse), rest⟩
    | _ => .error ⟨.expectedObjectEnd, t.peek⟩

def Machine.step (m : Machine) (t : Token) : Except Failure Machine :=
  match m.expect with
  | .value =>
    match m.stack, t.kind with
    | .list _ :: _, .closeList => .error ⟨.trailingComma, t.peek⟩
    | _, _ => m.onValue t
  | .firstItem =>
    match t.kind with
    | .closeList => .ok ⟨.next (.array []), m.stack.drop 1⟩
    | _ => m.onValue t
  | .firstName =>
    match t.kind with
    | .closeObject => .ok ⟨.next (.object []), m.stack.drop 1⟩
    | _ => m.onName [] t
  | .name members =>
    match t.kind with
    | .closeObject => .error ⟨.trailingComma, t.peek⟩
    | _ => m.onName members t
  | .colon =>
    match t.kind with
    | .colon => .ok ⟨.value, m.stack⟩
    | _ => .error ⟨.expectedColon, t.peek⟩
  | .next v => Machine.onNext v m.stack t

/-- The machine on a list of tokens that ends at `e`. -/
def run (e : Position) (m : Machine) : List Token → Except Failure Json
  | [] => m.atEnd e
  | t :: ts => do run e (← m.step t) ts

/-- The value of a text with the members of objects as they are written, or the first failure in it. -/
def readAsWritten (s : String) : Except Failure Json :=
  let (ts, e) := tokens s
  run e Machine.start ts

mutual

/-- The value with the members of objects in the order of their names; of one name the last counts. -/
def ordered : Json → Json
  | .array xs => .array (orderedItems xs)
  | .object ms => ofFields (orderedMembers ms)
  | v => v

def orderedItems : List Json → List Json
  | [] => []
  | x :: r => ordered x :: orderedItems r

def orderedMembers : List (String × Json) → List (String × Json)
  | [] => []
  | (k, v) :: r => (k, ordered v) :: orderedMembers r

end

/-- The value of a text, or the first failure in it. -/
def read (s : String) : Except Failure Json := (readAsWritten s).map ordered

end Harvesting.Json
