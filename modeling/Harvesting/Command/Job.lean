import Harvesting.Command.Deployment
import Harvesting.Command.Screen
import Harvesting.Settings.Example
import Harvesting.Store.Backend

/-!
# Commands

* `Command` — what can be asked of the program;
* `Machine` — what a command finds: a disk, the time, a terminal;
* `Job`, `Command.job` — what a command comes down to: a text to print, with the store after it, or
  sources to run.
-/

namespace Harvesting

/-- What can be asked of the program. -/
inductive Command where
  /-- Harvest a source, or all. -/
  | run (source : Option String) (o : RunOptions)
  /-- Show what a source would do next, or all. -/
  | plan (source : Option String)
  /-- Show how far all sources got. -/
  | status
  /-- Remove the checkpoint of a source. -/
  | reset (source : String)
  /-- Show settings to start from. -/
  | sample
  deriving Repr, DecidableEq

/-- What a command finds. -/
structure Machine where
  disk : Disk.Node
  /-- The working folder. -/
  cwd : String
  now : Instant
  /-- The terminal shows colours. -/
  colours : Bool
  processors : Nat

/-- What a command comes down to. -/
inductive Job where
  /-- A text to print, and the disk after the command. -/
  | print (screen : String) (disk : Disk.Node)
  /-- Sources to run on a store. -/
  | harvest (ds : List Deployment) (b : Backend)

namespace Command

/-- The store that settings ask for. -/
def open? (m : Machine) (s : HarvestSettings) : Except CommandFault Backend :=
  (Backend.of s.store m.disk m.cwd).mapError .settings

/-- Removes the checkpoints of sources, with a line for each. -/
def resetAll (colours : Bool) : List SourceSettings → Backend → Except CommandFault (String × Backend)
  | [], b => .ok ("", b)
  | s :: r, b => do
    let (existed, b) := Store.reset b s.key
    let line := Screen.reset colours s.key (← existed.mapError .store)
    let (rest, b) ← resetAll colours r b
    return (line ++ rest, b)

def job (m : Machine) (s : HarvestSettings) : Command → Except CommandFault Job
  | run name o => do
    let b ← open? m s
    return .harvest (← Deployment.all s name o m.processors) b
  | plan name => do
    let b ← open? m s
    let sources ← (s.select name).mapError .settings
    return .print (Screen.plan m.colours (← Overview.decisions b m.now sources)) m.disk
  | status => do
    let b ← open? m s
    return .print (Screen.status m.colours (← Overview.statuses b s.sources)) m.disk
  | reset name => do
    let sources ← (s.select (some name)).mapError .settings
    let (screen, b) ← resetAll m.colours sources (← open? m s)
    return .print screen (b.diskAfter m.disk)
  | sample => return .print exampleSettings m.disk

end Command

end Harvesting
