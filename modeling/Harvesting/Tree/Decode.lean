import Harvesting.Tree.Mismatch

/-!
# Understanding trees

Readers of values out of trees. Each takes the dialect of the tree and gives the value or the
mismatch that a reader of that dialect reports.

* `string`, `unsigned`, `signed32`, `boolean`, `choice`, `optional` — single values;
* `Schema`, `record` — the members of a record with the names of a schema, from a table or from a list
  in the order of the schema, all checked in the order in which they stand;
* `Members.get` — a member of a checked record.

In settings the words `true`, `on`, `yes` and `false`, `off`, `no` are numbers and switches in any letter case.
-/

namespace Harvesting.Tree

/-- What stands in place of the expected value. -/
def found : Tree → Found
  | .scalar _ .null => .null
  | .scalar _ (.bool b) => .bool b
  | .scalar _ (.int n) => .int n
  | .scalar _ (.real x) => .real x
  | .scalar _ (.string s) => .string s
  | .list .. => .list
  | .table .. => .table

/-- A mismatch of the type of a tree, in the words of a single setting for settings. -/
def wrongType (d : Dialect) (t : Tree) (expected setting : String) : Mismatch :=
  match d with
  | .settings => ⟨.setting t.found setting, d, none, t.origin⟩
  | _ => Mismatch.of d (.type t.found expected)

/-- A text; settings also take numbers and switches, as they would be printed. -/
def string (d : Dialect) (expected : String) (t : Tree) : Except Mismatch String :=
  match d, t with
  | _, .scalar _ (.string s) => .ok s
  | .settings, .scalar _ (.bool b) => .ok (toString b)
  | .settings, .scalar _ (.int n) => .ok (toString n)
  | .settings, .scalar _ (.real x) => .ok (Shortest.text Shortest.plain x)
  | _, t => .error (wrongType d t expected "a string")

def lower (s : String) : String := s.map Char.toLower

/-- The words that settings take for switches. -/
def switch? (s : String) : Option Bool :=
  match lower s with
  | "true" | "on" | "yes" => some true
  | "false" | "off" | "no" => some false
  | _ => none

/-- The values below this bound are unsigned numbers of 64 bits. -/
def bound64 : Nat := 18446744073709551616

def settingUnsigned (t : Tree) : Except Mismatch Nat :=
  let refuse : Except Mismatch Nat := .error (wrongType .settings t "" "an integer")
  match t with
  | .scalar o (.int n) =>
    if 0 ≤ n then .ok n.toNat
    else .error ⟨.setting (.int n) "an unsigned 64 bit or less integer", .settings, none, o⟩
  | .scalar _ (.bool b) => .ok (if b then 1 else 0)
  | .scalar _ (.real x) => .ok (x.clamped 0 (bound64 - 1)).toNat
  | .scalar _ (.string s) =>
    match switch? s with
    | some b => .ok (if b then 1 else 0)
    | none =>
      match Text.Decimal.unsigned? bound64 s with
      | some n => .ok n
      | none => refuse
  | _ => refuse

/--
An unsigned number of `bits` bits, called `name` in documents. Settings first take any number of 64
bits.
-/
def unsigned (d : Dialect) (name : String) (bits : Nat) (t : Tree) : Except Mismatch Nat :=
  match d, t with
  | .settings, t => do
    let n ← settingUnsigned t
    if n < Nat.pow 2 bits then return n
    else .error ⟨.setting (.natural n) ("an unsigned " ++ toString bits ++ " bit integer"), d, none, none⟩
  | _, .scalar _ (.int n) =>
    if 0 ≤ n ∧ n < Nat.pow 2 bits then .ok n.toNat
    else .error (Mismatch.of d (.value (.int n) name))
  | _, t => .error (Mismatch.of d (.type t.found name))

/-- A signed number of 32 bits in a document. -/
def signed32 (t : Tree) : Except Mismatch Int :=
  match t with
  | .scalar _ (.int n) =>
    if -2147483648 ≤ n ∧ n ≤ 2147483647 then .ok n
    else .error (Mismatch.of .document (.value (.int n) "i32"))
  | t => .error (Mismatch.of .document (.type t.found "i32"))

/-- A switch; settings also take its words and numbers other than zero. -/
def boolean (d : Dialect) (t : Tree) : Except Mismatch Bool :=
  match d, t with
  | _, .scalar _ (.bool b) => .ok b
  | .settings, .scalar _ (.int n) => .ok (n ≠ 0)
  | .settings, .scalar _ (.real x) => .ok (match x with
    | .finite _ m _ => m ≠ 0
    | _ => true)
  | .settings, .scalar _ (.string s) =>
    match switch? s with
    | some b => .ok b
    | none => .error (wrongType d t "a boolean" "a boolean")
  | d, t => .error (wrongType d t "a boolean" "a boolean")

/-- Nothing for null, else what the reader gives. -/
def optional {α : Type} (reader : Tree → Except Mismatch α) : Tree → Except Mismatch (Option α)
  | .scalar _ .null => .ok none
  | t => (reader t).map some

/-- The choice of that name; in settings letter case does not matter. -/
def choose {α : Type} (missing : Cause) (d : Dialect) (choices : List (String × α)) (name : String) :
    Except Mismatch α :=
  let same (n : String) : Bool := if d = .settings then lower n = lower name else n = name
  match choices.find? (same ·.1) with
  | some (_, a) => .ok a
  | none => .error (Mismatch.of d missing)

/--
One of several names, standing alone or as the only name of a table. A document has null beside the
name in a table.
-/
def choice {α : Type} (d : Dialect) (enum : String) (choices : List (String × α)) (t : Tree) :
    Except Mismatch α :=
  let names := choices.map (·.1)
  match d, t with
  | .settings, .scalar _ (.string s) => choose (.noConstructor enum s) d choices s
  | .settings, .table _ [(s, _)] => choose (.noConstructor enum s) d choices s
  | .settings, _ => .error (Mismatch.of d (.notConstructor enum))
  | _, .scalar _ (.string s) => choose (.unknownVariant s names) d choices s
  | _, .table _ [(s, v)] => do
    let a ← choose (.unknownVariant s names) d choices s
    match v with
    | .scalar _ .null => return a
    | v => .error (Mismatch.of d (.type v.found "unit"))
  | _, .table .. => .error (Mismatch.of d (.value .table "map with a single key"))
  | _, t => .error (Mismatch.of d (.type t.found "string or map"))

/-! ### Records -/

/-- The names of a record's members in order, each with the check of its value. -/
abbrev Schema := List (String × (Tree → Except Mismatch Unit))

/-- The members that a record has, under the names of its schema. -/
structure Members where
  found : List (String × Tree)

def Members.tree? (ms : Members) (name : String) : Option Tree := lookup name ms.found

/-- The value of a member, or `absent`. The check of the record has read it before. -/
def Members.get {α : Type} (ms : Members) (name : String) (absent : α)
    (reader : Tree → Except Mismatch α) : Except Mismatch α :=
  match ms.tree? name with
  | some t => reader t
  | none => .ok absent

/-- A check that forgets the value. -/
def check {α : Type} (reader : Tree → Except Mismatch α) (t : Tree) : Except Mismatch Unit :=
  (reader t).map fun _ => ()

/-- Checks the members of a table in their order; names outside the schema are passed over. -/
def checkTable (schema : Schema) : List (String × Tree) → Except Mismatch Unit
  | [] => .ok ()
  | (k, v) :: r => do
    match schema.find? (·.1 = k) with
    | some (_, reader) => (reader v).mapError (·.underName k)
    | none => pure ()
    checkTable schema r

/-- Checks the items of a list against the schema, one by one, from item `i` on. -/
def checkList (i : Nat) : Schema → List Tree → Except Mismatch Unit
  | (_, reader) :: schema, t :: ts => do
    (reader t).mapError (·.underIndex i)
    checkList (i + 1) schema ts
  | _, _ => .ok ()

def elements (n : Nat) : String := toString n ++ (if n = 1 then " element" else " elements")

/--
The members of a record called `name`, the first `required` of which must be there. A list gives them
in the order of the schema; a document's list has no items beyond it.
-/
def record (d : Dialect) (name : String) (schema : Schema) (required : Nat) (t : Tree) :
    Except Mismatch Members :=
  match t with
  | .table _ ms => do
    checkTable schema ms
    match (schema.take required).find? fun f => (lookup f.1 ms).isNone with
    | some f => .error (Mismatch.of d (.missingField f.1))
    | none => return ⟨ms⟩
  | .list _ ts => do
    checkList 0 schema ts
    if ts.length < required then
      .error (Mismatch.of d (.length ts.length ("struct " ++ name ++ " with " ++ elements schema.length)))
    if d ≠ .settings ∧ schema.length < ts.length then
      .error (Mismatch.of d (.length ts.length "fewer elements in array"))
    return ⟨(schema.map (·.1)).zip ts⟩
  | t => .error (Mismatch.of d (.type t.found ("struct " ++ name)))

def items {α : Type} (d : Dialect) (reader : Tree → Except Mismatch α) (t : Tree) :
    Except Mismatch (List α) :=
  match t with
  | .list _ ts => go 0 ts
  | t => .error (Mismatch.of d (.type t.found "a sequence"))
where
  go (i : Nat) : List Tree → Except Mismatch (List α)
    | [] => .ok []
    | t :: ts => do
      let a ← (reader t).mapError (·.underIndex i)
      return a :: (← go (i + 1) ts)

end Harvesting.Tree
