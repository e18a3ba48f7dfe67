import Harvesting.Disk.Basic
import Harvesting.Format.Ini
import Harvesting.Format.Json5
import Harvesting.Format.Ron
import Harvesting.Format.Toml
import Harvesting.Format.Yaml
import Harvesting.Json.Reader

/-!
# Files of settings

* `FileFormat` and its `extensions`; `FileFormat.read?` — the members of the table that a text writes;
* `FileFormat.find` — the file of a path: the path itself if it is a file of a known extension, or else
  the path with one of the extensions added.
-/

namespace Harvesting

/-- The formats in which settings are written. -/
inductive FileFormat where
  | toml
  | json
  | yaml
  | ini
  | ron
  | json5
  deriving Repr, DecidableEq

namespace FileFormat

def extensions : List (FileFormat × List String) := [
  (toml, ["toml"]), (json, ["json"]), (yaml, ["yaml", "yml"]), (ini, ["ini"]), (ron, ["ron"]),
  (json5, ["json5"])]

def ofExtension? (ext : String) : Option FileFormat :=
  (extensions.find? (·.2.contains ext)).map (·.1)

def tree? (f : FileFormat) (origin : Option String) (s : String) : Option Tree :=
  match f with
  | toml => Toml.read? origin s
  | json => ((Json.read s).toOption).map (Tree.ofJson origin)
  | yaml => Yaml.read? origin s
  | ini => Ini.read? origin s
  | ron => Ron.read? origin s
  | json5 => Json5.read? origin s

/-- The members of the table that a text writes; none if it writes anything else. -/
def read? (f : FileFormat) (origin : Option String) (s : String) : Option (List (String × Tree)) :=
  match f.tree? origin s with
  | some (.table _ ms) => some ms
  | _ => none

/-- What the reader of a format says of a text of a file that it refuses. -/
def complaint (f : FileFormat) (path s : String) : String :=
  match f, Json.read s with
  | json, .error e => e.message ++ " in " ++ path
  | toml, _ => "TOML parse error in " ++ path
  | _, _ => ""

/-- The extension at the end of a path, without its point. -/
def extensionOf (path : String) : String :=
  let name := (path.toList.reverse.takeWhile (· ≠ '/')).reverse
  match name.reverse.dropWhile (· ≠ '.') with
  | _ :: _ :: _ => String.ofList (name.reverse.takeWhile (· ≠ '.')).reverse
  | _ => ""

/-- What is found at a path. -/
inductive Found where
  /-- A file, its path and what it holds. -/
  | file (format : FileFormat) (path : String) (content : List UInt8)
  /-- A file of which the format is not known. -/
  | unknown
  | missing
  deriving Repr, DecidableEq

def contentOf? (disk : Disk.Node) (folder path : String) : Option (List UInt8) :=
  (Disk.read disk (Disk.path folder path)).toOption

def find (disk : Disk.Node) (folder path : String) : Found :=
  match contentOf? disk folder path with
  | some content =>
    match ofExtension? (extensionOf path) with
    | some format => .file format path content
    | none => .unknown
  | none =>
    let candidates := extensions.flatMap fun (f, exts) => exts.map fun e => (f, path ++ "." ++ e)
    (candidates.findSome? fun (f, p) => (contentOf? disk folder p).map (.file f p)).getD .missing

end FileFormat

end Harvesting
