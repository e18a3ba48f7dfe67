import Harvesting.Json.Value
import Harvesting.Tree.Decode

/-!
# Settings of the store

Where checkpoints are kept.

* `StoreSettings` — in a folder, in memory, or in a database;
* `ofTree`, `toJson` — reading and writing the settings: `backend` says which of the three.
-/

namespace Harvesting

/-- Where checkpoints are kept. -/
inductive StoreSettings where
  | folder (path : String)
  /-- In memory: progress is lost at the end. -/
  | memory
  | database (url : String)
  deriving Repr, DecidableEq

namespace StoreSettings

/-- The folder that is used where none is named. -/
def defaultFolder : String := "./checkpoints"

/-- The settings that apply where nothing is said. -/
def default : StoreSettings := .folder defaultFolder

/-- The names of the kinds of stores. -/
def backends : List String := ["file", "memory", "postgres"]

/-- The name of a kind of store. -/
def backend (t : Tree) : Except Tree.Mismatch String :=
  match t with
  | .scalar _ (.string s) =>
    if backends.contains s then .ok s else .error (.of .variant (.unknownVariant s backends))
  | t => .error (.of .variant (.type t.found "variant identifier"))

def folderOf (t : Option Tree) : Except Tree.Mismatch StoreSettings :=
  match t with
  | none => .ok default
  | some t => (Tree.string .variant "path string" t).map .folder

def databaseOf (absent : Tree.Cause) (t : Option Tree) : Except Tree.Mismatch StoreSettings :=
  match t with
  | none => .error (.of .variant absent)
  | some t => (Tree.string .variant "a string" t).map .database

/-- The settings of a tree; a list has the kind of store first. -/
def ofTree (t : Tree) : Except Tree.Mismatch StoreSettings :=
  match t with
  | .table _ ms => do
    let some kind := Tree.lookup "backend" ms | .error (.of .variant (.missingField "backend"))
    match ← backend kind with
    | "file" => folderOf (Tree.lookup "dir" ms)
    | "memory" => .ok .memory
    | _ => databaseOf (.missingField "url") (Tree.lookup "url" ms)
  | .list _ [] => .error (.of .variant (.missingField "backend"))
  | .list _ (kind :: rest) => do
    match ← backend kind with
    | "file" => folderOf rest.head?
    | "memory" => .ok .memory
    | _ =>
      databaseOf (.length 0 "struct variant CheckpointConfig::Postgres with 1 element") rest.head?
  | t => .error (.of .variant (.type t.found "internally tagged enum CheckpointConfig"))

def toJson : StoreSettings → Json
  | .folder path => Json.ofFields [("backend", .string "file"), ("dir", .string path)]
  | .memory => Json.ofFields [("backend", .string "memory")]
  | .database url => Json.ofFields [("backend", .string "postgres"), ("url", .string url)]

end StoreSettings

end Harvesting
