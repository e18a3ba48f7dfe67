import Harvesting.Command.Arguments

/-!
# The reach of a run

Which files a run may look at or change, so that the rest of a disk need not be known.

* `Reach.ofSettings` — the files in which settings may be;
* `Reach.ofKey` — the files of a source in the store;
* `Reach.ofRun` — the files of all sources, and the folder of the log.

A run looks for settings first; what they say leads to the rest.
-/

namespace Harvesting.Reach

/-- A path and the folders above it. -/
def upwards (p : Disk.Path) : List Disk.Path :=
  (List.range (p.length + 1)).reverse.map p.take

/-- The paths at which a file of settings may be. -/
def candidates (path : String) : List String :=
  path :: FileFormat.extensions.flatMap fun (_, exts) => exts.map fun e => path ++ "." ++ e

/-- The files in which settings may be. -/
def ofSettings (cwd : String) (e : Environment) (words : List String) : List Disk.Path :=
  match Arguments.parse e words with
  | .error _ => []
  | .ok a =>
    ((a.config.map candidates).getD []).map (Disk.path cwd) ++
      (upwards (Disk.path cwd "")).map (· ++ [HarvestSettings.variableFile])

/-- The files of a source in the store, a backup before what it is a backup of. -/
def ofKey (a : Archive) (key : String) : List Disk.Path :=
  a.folder key :: [Slot.checkpoint, Slot.tally].flatMap fun slot =>
    [Archive.Role.temporary, .backup, .current].map (a.path key slot)

/-- The files of sources on a store. -/
def ofStore (b : Backend) (keys : List String) : List Disk.Path :=
  match b with
  | .archive a => keys.flatMap (ofKey a)
  | .memory _ => []

/-- The files that a command may look at or change under some settings. -/
def ofCommand (m : Machine) (s : HarvestSettings) : List Disk.Path :=
  let stored := match Backend.of s.store m.disk m.cwd with
    | .ok b => ofStore b (s.sources.map SourceSettings.key)
    | .error _ => []
  (if s.log.output.hasFile then [Disk.path m.cwd s.log.folder] else []) ++ stored

/-- The files that a run may look at or change, where the files of its settings are known. -/
def ofRun (m : Machine) (e : Environment) (words : List String) : List Disk.Path :=
  match Arguments.parse e words with
  | .error _ => []
  | .ok a =>
    match HarvestSettings.load m.disk m.cwd e a.config with
    | .error _ => []
    | .ok s => ofCommand m s

end Harvesting.Reach
