import Harvesting.Number.Shortest

/-!
# JSON values

* `Json` — the type; whole numbers from `-2^63` to `2^64 - 1` are kept exactly, all others are
  binary floating-point numbers;
* `Json.object` holds its members ordered by name, each name once: `Json.insert` keeps that order and
  replaces an earlier member of the same name;
* `Json.ofFields`, `Json.lookup` — building an object and looking a member up.
-/

namespace Harvesting

/-- A JSON value. -/
inductive Json where
  | null
  | bool (b : Bool)
  | int (n : Int)
  | real (x : Binary64)
  | string (s : String)
  | array (items : List Json)
  | object (members : List (String × Json))
  deriving Repr, Inhabited

namespace Json

/-- The members with `name` set to `v`, in the order of names. -/
def insert (name : String) (v : Json) : List (String × Json) → List (String × Json)
  | [] => [(name, v)]
  | (k, w) :: r =>
    if name = k then (name, v) :: r
    else if name < k then (name, v) :: (k, w) :: r
    else (k, w) :: insert name v r

/-- The object with the given members; of two members of one name the later counts. -/
def ofFields (fields : List (String × Json)) : Json :=
  .object (fields.foldl (fun members f => insert f.1 f.2 members) [])

def lookup (name : String) : List (String × Json) → Option Json
  | [] => none
  | (k, v) :: r => if k = name then some v else lookup name r

def asString? : Json → Option String
  | .string s => some s
  | _ => none

def asBool? : Json → Option Bool
  | .bool b => some b
  | _ => none

def ofString? : Option String → Json
  | some s => .string s
  | none => .null

end Json

end Harvesting
