/-!
# Disks

A file system as a value: folders hold files and folders, each by name. Paths are lists of names,
read from the working folder.

* `Disk.Node` — a file with its bytes, or a folder;
* `Disk.Fault` — why an operation is refused, with its wording;
* `Disk.at?`, `Disk.read`, `Disk.write`, `Disk.makeFolders`, `Disk.exists`, `Disk.rename`,
  `Disk.remove` — the operations;
* `Disk.path` — the names in the text of a path.
-/

namespace Harvesting.Disk

abbrev Bytes := List UInt8

def bytesOf (s : String) : Bytes := s.toUTF8.toList

def textOf? (b : Bytes) : Option String := String.fromUTF8? ⟨b.toArray⟩

/-- A file or a folder. -/
inductive Node where
  | file (contents : Bytes)
  | folder (entries : List (String × Node))
  deriving Inhabited

/-- Why an operation is refused. -/
inductive Fault where
  | notFound
  | exists
  | notFolder
  | isFolder
  | nameTooLong
  | notRegular
  deriving Repr, DecidableEq

def Fault.message : Fault → String
  | .notFound => "No such file or directory (os error 2)"
  | .exists => "File exists (os error 17)"
  | .notFolder => "Not a directory (os error 20)"
  | .isFolder => "Is a directory (os error 21)"
  | .nameTooLong => "File name too long (os error 36)"
  | .notRegular => "the source path is neither a regular file nor a symlink to a regular file"

/-- A path from the root, by the names on it. -/
abbrev Path := List String

/-- The most bytes that a name may have. -/
def maxName : Nat := 255

def child? (name : String) : List (String × Node) → Option Node
  | [] => none
  | (k, n) :: r => if k = name then some n else child? name r

/-- The entries with `name` set to `n`, in the order of names. -/
def setEntry (name : String) (n : Node) : List (String × Node) → List (String × Node)
  | [] => [(name, n)]
  | (k, m) :: r =>
    if name = k then (name, n) :: r
    else if name < k then (name, n) :: (k, m) :: r
    else (k, m) :: setEntry name n r

def dropEntry (name : String) (es : List (String × Node)) : List (String × Node) :=
  es.filter (·.1 ≠ name)

def at? (n : Node) : Path → Except Fault Node
  | [] => .ok n
  | name :: rest =>
    match n with
    | .file _ => .error .notFolder
    | .folder es =>
      if maxName < name.utf8ByteSize then .error .nameTooLong
      else match child? name es with
        | some m => at? m rest
        | none => .error .notFound

/-- Changes the entries of the folder in which a path ends; `f` gets the last name. -/
def inFolder (f : String → List (String × Node) → Except Fault (List (String × Node))) (n : Node) :
    Path → Except Fault Node
  | [] => .error .isFolder
  | [name] =>
    match n with
    | .file _ => .error .notFolder
    | .folder es =>
      if maxName < name.utf8ByteSize then .error .nameTooLong else (f name es).map .folder
  | name :: next :: rest =>
    match n with
    | .file _ => .error .notFolder
    | .folder es =>
      if maxName < name.utf8ByteSize then .error .nameTooLong
      else match child? name es with
        | some m => (inFolder f m (next :: rest)).map fun m => .folder (setEntry name m es)
        | none => .error .notFound

def read (n : Node) (p : Path) : Except Fault Bytes := do
  match ← at? n p with
  | .file b => return b
  | .folder _ => .error .isFolder

/-- Whether there is anything at a path; a path that leads nowhere is no fault. -/
def exists? (n : Node) (p : Path) : Except Fault Bool :=
  match at? n p with
  | .ok _ => .ok true
  | .error .notFound => .ok false
  | .error e => .error e

/-- Writes a file, in place of one that is there. -/
def write (n : Node) (p : Path) (b : Bytes) : Except Fault Node :=
  inFolder (fun name es =>
    match child? name es with
    | some (.folder _) => .error .isFolder
    | _ => .ok (setEntry name (.file b) es)) n p

/--
Makes the folder at a path and the folders on the way to it. Folders made before one that cannot be
made stay.
-/
def makeFolders (n : Node) : Path → Except Fault Unit × Node
  | [] => match n with
    | .file b => (.error .exists, .file b)
    | .folder es => (.ok (), .folder es)
  | name :: rest =>
    match n with
    | .file b => (.error .notFolder, .file b)
    | .folder es =>
      if maxName < name.utf8ByteSize then (.error .nameTooLong, .folder es)
      else
        let (r, m) := makeFolders ((child? name es).getD (.folder [])) rest
        (r, .folder (setEntry name m es))

def remove (n : Node) (p : Path) : Except Fault Node :=
  inFolder (fun name es =>
    match child? name es with
    | some (.file _) => .ok (dropEntry name es)
    | some (.folder _) => .error .isFolder
    | none => .error .notFound) n p

/-- Copies a file over another path. -/
def copy (n : Node) (source target : Path) : Except Fault Node := do
  match ← at? n source with
  | .file b => write n target b
  | .folder _ => .error .notRegular

/-- Gives a file another path, in place of a file that is there. -/
def rename (n : Node) (source target : Path) : Except Fault Node := do
  let b ← read n source
  remove (← write n target b) source

/-! ### Texts of paths -/

/-- The names between slashes; empty names and single points stand for nothing. -/
def names (s : String) : Path :=
  ((s.toList.splitOn '/').map String.ofList).filter fun name => name ≠ "" && name ≠ "."

/-- Leaves the last folder at every double point. -/
def climb (p : Path) : Path :=
  p.foldl (fun acc name => if name = ".." then acc.dropLast else acc ++ [name]) []

/-- The path that a text names; one that does not start with a slash starts at the folder `cwd`. -/
def path (cwd s : String) : Path :=
  climb (names (if s.startsWith "/" then s else cwd ++ "/" ++ s))

def join (folder name : String) : String :=
  if name.startsWith "/" then name
  else if folder = "" then name
  else if folder.endsWith "/" then folder ++ name
  else folder ++ "/" ++ name

mutual

/-- All files with their paths, and the empty folders. -/
def listing (at_ : String) : Node → List (String × Option Bytes)
  | .file b => [(at_, some b)]
  | .folder [] => [(at_ ++ "/", none)]
  | .folder (e :: es) => listingEntries (if at_ = "" then "" else at_ ++ "/") (e :: es)

def listingEntries (before : String) : List (String × Node) → List (String × Option Bytes)
  | [] => []
  | (name, n) :: r => listing (before ++ name) n ++ listingEntries before r

end

end Harvesting.Disk
