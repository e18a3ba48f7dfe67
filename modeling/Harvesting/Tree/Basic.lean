import Harvesting.Json.Value

/-!
# Trees of values

What a document or a settings file says, before it is understood: scalars, lists and tables, each
with the name of the place it was read from, if that place has one.

* `Tree` — the type;
* `Tree.ofJson` — a JSON value as a tree;
* `Tree.lookup` — a member of a table.
-/

namespace Harvesting

/-- A value that has no parts. -/
inductive Scalar where
  | null
  | bool (b : Bool)
  | int (n : Int)
  | real (x : Binary64)
  | string (s : String)
  deriving Repr, DecidableEq

/-- A value and where it was read. The members of a table are in the order in which they are read. -/
inductive Tree where
  | scalar (origin : Option String) (v : Scalar)
  | list (origin : Option String) (items : List Tree)
  | table (origin : Option String) (members : List (String × Tree))
  deriving Repr, Inhabited

namespace Tree

def origin : Tree → Option String
  | .scalar o _ => o
  | .list o _ => o
  | .table o _ => o

mutual

def ofJson (origin : Option String) : Json → Tree
  | .null => .scalar origin .null
  | .bool b => .scalar origin (.bool b)
  | .int n => .scalar origin (.int n)
  | .real x => .scalar origin (.real x)
  | .string s => .scalar origin (.string s)
  | .array xs => .list origin (ofJsonItems origin xs)
  | .object ms => .table origin (ofJsonMembers origin ms)

def ofJsonItems (origin : Option String) : List Json → List Tree
  | [] => []
  | x :: r => ofJson origin x :: ofJsonItems origin r

def ofJsonMembers (origin : Option String) : List (String × Json) → List (String × Tree)
  | [] => []
  | (k, v) :: r => (k, ofJson origin v) :: ofJsonMembers origin r

end

/-- The member of that name; of several the last one. -/
def lookup (name : String) : List (String × Tree) → Option Tree
  | [] => none
  | (k, v) :: r =>
    match lookup name r with
    | some w => some w
    | none => if k = name then some v else none

end Tree

end Harvesting
