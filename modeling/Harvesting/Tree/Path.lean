import Harvesting.Text.Decimal
import Harvesting.Text.Reader
import Harvesting.Tree.Basic

/-!
# Paths into trees

A key of settings may lead into tables and lists: `sink.url`, `sources[0].name`. Letter case does not
matter in it.

* `Path` and `Path.parse` — a key that is no path is the name of a member as it stands;
* `Tree.set` — a tree with one value set. Tables are merged member by member, anything else is
  replaced; what is missing on the way is made.
-/

namespace Harvesting

/-- One step of a path. -/
inductive Step where
  | member (name : String)
  /-- The item of that number; a negative one counts from the end. -/
  | item (i : Int)
  deriving Repr, DecidableEq

namespace Path

open Text Reader

def isNameChar (c : Char) : Bool := c.isAlphanum || c = '_' || c = '-' || c = ' '

def name : Reader Step := do
  return .member (String.ofList (← nonempty isNameChar))

/-- The number of an item in brackets. -/
def item : Reader Step := do
  let gap := run fun c => c = ' ' || c = '\t'
  char '['
  let _ ← gap
  let minus ← maybe (char '-')
  let ds ← nonempty Char.isDigit
  let _ ← gap
  char ']'
  let n := Decimal.numeral ds
  require (n < Nat.pow 2 63)
  return .item (if minus.isSome then -(n : Int) else n)

def parse (key : String) : List Step :=
  let path : Reader (List Step) := do
    let first ← name
    return first :: (← many (oneOf [do { char '.'; name }, item]))
  (whole? path key.toList).getD [.member key]

end Path

namespace Tree

/-- The members with one of them changed; it is null before if it is missing. -/
def changeMember (name : String) (change : Tree → Tree) : List (String × Tree) → List (String × Tree)
  | [] => [(name, change (.scalar none .null))]
  | (k, v) :: r => if k = name then (k, change v) :: r else (k, v) :: changeMember name change r

/-- The members of a table; anything else has none. -/
def membersOf : Tree → List (String × Tree)
  | .table _ ms => ms
  | _ => []

/-- The items of a list; anything else has none. -/
def itemsOf : Tree → List Tree
  | .list _ ts => ts
  | _ => []

/-- The position that a number names among `n` items. -/
def position (n : Nat) (i : Int) : Nat := if 0 ≤ i then i.toNat else n - i.natAbs

/-- The items with one of them changed, after as many nulls as are missing before it. -/
def changeItem (i : Int) (change : Tree → Tree) (ts : List Tree) : List Tree :=
  let k := position ts.length i
  (ts ++ List.replicate (k + 1 - ts.length) (Tree.scalar none .null)).modify k change

def change (f : Tree → Tree) : List Step → Tree → Tree
  | [], t => f t
  | .member name :: r, t => .table t.origin (changeMember (lower name) (change f r) t.membersOf)
  | .item i :: r, t => .list t.origin (changeItem i (change f r) t.itemsOf)
where
  lower (s : String) : String := s.map Char.toLower

mutual

/-- The tree `old` overlaid with another one: tables member by member, anything else as a whole. -/
def merge (old : Tree) : Tree → Tree
  | .table _ ms => .table old.origin (mergeMembers old.membersOf ms)
  | t => t

def mergeMembers (old : List (String × Tree)) : List (String × Tree) → List (String × Tree)
  | [] => old
  | (k, v) :: r =>
    let name := k.map Char.toLower
    mergeMembers (changeMember name (fun o => merge o v) old) r

end

/-- The tree with a value set at the end of a path; an item of a list is replaced as a whole. -/
def set (t : Tree) (path : List Step) (v : Tree) : Tree :=
  match path.getLast? with
  | some (.item _) => change (fun _ => v) path t
  | _ => change (fun old => merge old v) path t

/-- A table overlaid with a layer of settings, of which each key is a path. -/
def overlay (t : Tree) (layer : List (String × Tree)) : Tree :=
  layer.foldl (fun old (k, v) => old.set (Path.parse k) v) t

end Tree

end Harvesting
