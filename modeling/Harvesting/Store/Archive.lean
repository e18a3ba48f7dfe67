import Harvesting.Disk.Basic
import Harvesting.Json.Printer
import Harvesting.Json.Reader
import Harvesting.Store.Basic

/-!
# The store on disk

Each source has a folder under the root with its documents as indented JSON. A document is written
beside its place, the old one is copied to a backup, and then the new one is moved into place, so that
a reader sees the old document or the new one and never a part.

* `Archive` — a root on a disk;
* `Archive.Step`, `Archive.putSteps` — the steps of writing a document, each of which may fail;
* the instance of `Store`.
-/

namespace Harvesting

/-- A store under a folder of a disk. -/
structure Archive where
  disk : Disk.Node
  /-- The working folder, as absolute paths name it. -/
  cwd : String
  /-- The text of the root's path. -/
  root : String

namespace Archive

/-- What a file in the folder of a source is for. -/
inductive Role where
  | current
  | temporary
  | backup
  deriving Repr, DecidableEq

def fileName (slot : Slot) : Role → String
  | .current => slot.id ++ ".json"
  | .temporary => slot.id ++ ".tmp.json"
  | .backup => slot.id ++ ".backup.json"

def pathText (a : Archive) (key : String) (slot : Slot) (role : Role) : String :=
  Disk.join (Disk.join a.root key) (fileName slot role)

def folder (a : Archive) (key : String) : Disk.Path := Disk.path a.cwd (Disk.join a.root key)

def path (a : Archive) (key : String) (slot : Slot) (role : Role) : Disk.Path :=
  a.folder key ++ [fileName slot role]

/-- A document in its place, or the reason why it cannot be read. -/
def parse (id : String) (b : Disk.Bytes) : Except Store.Fault Json :=
  match Disk.textOf? b with
  | none => .error (.corrupt id "invalid unicode code point")
  | some s => (Json.read s).mapError fun f => .corrupt id f.message

def get (a : Archive) (key : String) (slot : Slot) : Store.Answer Archive (Option Json) :=
  match Store.validate key with
  | .error e => (.error e, a)
  | .ok () =>
    match Disk.read a.disk (a.path key slot .current) with
    | .ok b => ((parse (a.pathText key slot .current) b).map some, a)
    | .error .notFound => (.ok none, a)
    | .error e => (.error (.io e.message), a)

/-- A step of writing a document. -/
inductive Step where
  | makeFolder
  /-- Writes the new document beside its place. -/
  | writeTemporary
  /-- Copies the old document, if there is one. -/
  | backUp
  /-- Moves the new document into its place. -/
  | install
  deriving Repr, DecidableEq

def putSteps : List Step := [.makeFolder, .writeTemporary, .backUp, .install]

/-- The disk after a change, or the disk as it was. -/
def changed (n : Disk.Node) : Except Disk.Fault Disk.Node → Except Disk.Fault Unit × Disk.Node
  | .ok m => (.ok (), m)
  | .error e => (.error e, n)

def Step.run (a : Archive) (key : String) (slot : Slot) (b : Disk.Bytes) :
    Step → Except Disk.Fault Unit × Disk.Node
  | .makeFolder => Disk.makeFolders a.disk (a.folder key)
  | .writeTemporary => changed a.disk (Disk.write a.disk (a.path key slot .temporary) b)
  | .backUp => changed a.disk do
    if ← Disk.exists? a.disk (a.path key slot .current) then
      Disk.copy a.disk (a.path key slot .current) (a.path key slot .backup)
    else return a.disk
  | .install =>
    changed a.disk (Disk.rename a.disk (a.path key slot .temporary) (a.path key slot .current))

/-- The steps up to the first one that fails; the disk keeps what was done until then. -/
def runSteps (key : String) (slot : Slot) (b : Disk.Bytes) :
    Archive → List Step → Store.Answer Archive Unit
  | a, [] => (.ok (), a)
  | a, step :: steps =>
    match step.run a key slot b with
    | (.ok (), disk) => runSteps key slot b { a with disk := disk } steps
    | (.error e, disk) => (.error (.io e.message), { a with disk := disk })

def put (a : Archive) (key : String) (slot : Slot) (doc : Json) : Store.Answer Archive Unit :=
  match Store.validate key with
  | .error e => (.error e, a)
  | .ok () => runSteps key slot (Disk.bytesOf doc.pretty) a putSteps

def remove (a : Archive) (key : String) (slot : Slot) : Store.Answer Archive Bool :=
  match Store.validate key with
  | .error e => (.error e, a)
  | .ok () =>
    match Disk.remove a.disk (a.path key slot .current) with
    | .ok disk => (.ok true, { a with disk := disk })
    | .error .notFound => (.ok false, a)
    | .error e => (.error (.io e.message), a)

instance : Store Archive := ⟨get, put, remove⟩

end Archive

end Harvesting
