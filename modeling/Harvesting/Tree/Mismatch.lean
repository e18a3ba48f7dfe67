import Harvesting.Text.Quoted
import Harvesting.Tree.Basic

/-!
# Mismatches

Why a tree does not have the shape that is asked for.

* `Found` — what was met instead; `Cause` — the kinds of mismatch;
* `Dialect` — documents say what they mean and are named in JSON's words; settings may write numbers
  and switches as strings, and name the place and the key of the value at fault;
* `Mismatch.message` — the wording.
-/

namespace Harvesting.Tree

/-- What was met instead of the expected value. -/
inductive Found where
  | bool (b : Bool)
  | int (n : Int)
  /-- A number that was taken for an unsigned one. -/
  | natural (n : Nat)
  | real (x : Binary64)
  | string (s : String)
  | null
  | list
  | table
  deriving Repr, DecidableEq

/-- How values are read and named. -/
inductive Dialect where
  /-- A stored document: every value is of the type it is written as. -/
  | document
  /-- Settings: numbers and switches may be strings, and strings may be numbers. -/
  | settings
  /-- A part of settings whose shape depends on another part: read like a document. -/
  | variant
  deriving Repr, DecidableEq

/-- The kinds of mismatch. -/
inductive Cause where
  /-- The value has another type. -/
  | type (found : Found) (expected : String)
  /-- The value has another type; said of a single setting, with the width of its number. -/
  | setting (found : Found) (expected : String)
  /-- The value has the type and lies outside its range. -/
  | value (found : Found) (expected : String)
  /-- A list is too short or too long. -/
  | length (n : Nat) (expected : String)
  | missingField (name : String)
  | duplicateField (name : String)
  | unknownVariant (name : String) (expected : List String)
  /-- Settings: the enumeration has no such name. -/
  | noConstructor (enum name : String)
  /-- Settings: neither a name nor a table with one. -/
  | notConstructor (enum : String)
  /-- A text that its own reader refused. -/
  | custom (message : String)
  deriving Repr, DecidableEq

/-- A mismatch with the key that leads to it and the place where it was read. -/
structure Mismatch where
  cause : Cause
  dialect : Dialect
  key : Option String
  origin : Option String
  deriving Repr, DecidableEq

namespace Mismatch

/-- A mismatch of a whole tree. -/
def of (d : Dialect) (c : Cause) : Mismatch := ⟨c, d, none, none⟩

/-- The segment in front of the key; keys are joined by a point except before an index. -/
def under (segment : String) (dotted : Bool) (m : Mismatch) : Mismatch :=
  match m.cause with
  | .setting .. =>
    let key := m.key.getD ""
    let dot := dotted && key ≠ "" && key.toList.head? ≠ some '['
    { m with key := some (segment ++ (if dot then "." else "") ++ key) }
  | _ => m

def underName (name : String) (m : Mismatch) : Mismatch := m.under name true

def underIndex (i : Nat) (m : Mismatch) : Mismatch := m.under ("[" ++ toString i ++ "]") false

end Mismatch

/-- A number with a point in any case. -/
def pointed (s : String) : String := if s.toList.any (· = '.') then s else s ++ ".0"

/-- What was met, in the words of the dialect. -/
def Found.text (d : Dialect) : Found → String
  | .bool b => "boolean `" ++ toString b ++ "`"
  | .int n => "integer `" ++ toString n ++ "`"
  | .natural n => "integer `" ++ toString n ++ "`"
  | .real x =>
    let digits := match d with
      | .document => Shortest.text ⟨-5, 15, true, "+"⟩ x
      | _ => pointed (Shortest.text Shortest.plain x)
    "floating point `" ++ digits ++ "`"
  | .string s => "string " ++ Text.quoted s
  | .null => if d = .document then "null" else "unit value"
  | .list => "sequence"
  | .table => "map"

/-- What was met, as said of a single setting. -/
def Found.settingText : Found → String
  | .int n =>
    (if n ≤ 9223372036854775807 then "64-bit integer `" else "64-bit unsigned integer `") ++ toString n ++ "`"
  | .natural n => "64-bit unsigned integer `" ++ toString n ++ "`"
  | .real x => "floating point `" ++ Shortest.text Shortest.plain x ++ "`"
  | f => f.text .settings

/-- The names that a variant may have. -/
def oneOf (names : List String) : String :=
  let quotedNames := names.map fun n => "`" ++ n ++ "`"
  match quotedNames with
  | [] => "there are no variants"
  | [a] => "expected " ++ a
  | [a, b] => "expected " ++ a ++ " or " ++ b
  | _ => "expected one of " ++ String.intercalate ", " quotedNames

def Mismatch.message (m : Mismatch) : String :=
  match m.cause with
  | .type f e => "invalid type: " ++ f.text m.dialect ++ ", expected " ++ e
  | .setting f e =>
    "invalid type: " ++ f.settingText ++ ", expected " ++ e ++
      (match m.key with
        | some k => " for key `" ++ k ++ "`"
        | none => "") ++
      (match m.origin with
        | some o => " in " ++ o
        | none => "")
  | .value f e => "invalid value: " ++ f.text m.dialect ++ ", expected " ++ e
  | .length n e => "invalid length " ++ toString n ++ ", expected " ++ e
  | .missingField n => "missing field `" ++ n ++ "`"
  | .duplicateField n => "duplicate field `" ++ n ++ "`"
  | .unknownVariant n names => "unknown variant `" ++ n ++ "`, " ++ oneOf names
  | .noConstructor e n => "enum " ++ e ++ " does not have variant constructor " ++ n
  | .notConstructor e =>
    "value of enum " ++ e ++ " should be represented by either string or table with exactly one key"
  | .custom t => t

end Harvesting.Tree
