import Harvesting.Disk.Basic
import Harvesting.Log.Directive
import Harvesting.Settings.Environment

/-!
# Filters of the log

What is logged follows from directives: for each target that of the longest name with which the target
starts. Of two directives for one name the later counts.

* `Filter`, `Filter.add`, `Filter.volume` — the directives in force;
* `LogSettings.filter` — the filter of settings: first what `RUST_LOG` says, then the level, then the
  directives of the settings;
* `LogSettings.begin` — the start of the log, which makes the folder of its files.
-/

namespace Harvesting

namespace Log

/-- Directives in force, for each name one. -/
structure Filter where
  directives : List Directive

namespace Filter

def empty : Filter := ⟨[]⟩

/-- One more directive, in place of the one for its name. -/
def add (f : Filter) (d : Directive) : Filter :=
  if d.spanned then f else ⟨f.directives.filter (·.target ≠ d.target) ++ [d]⟩

/-- The number of characters of a directive's name, counted from one; a directive without a name weighs nothing. -/
def weight (d : Directive) : Nat :=
  match d.target with
  | none => 0
  | some name => name.length + 1

def covers (target : List Char) (d : Directive) : Bool :=
  d.target.all fun name => name.isPrefixOf target

def heavier (d : Directive) : Option Directive → Directive
  | none => d
  | some e => if weight d < weight e then e else d

/-- How much is logged of a target. -/
def volume (f : Filter) (target : String) : Volume :=
  let found := f.directives.filter (covers target.toList)
  match found.foldl (fun best d => some (heavier d best)) none with
  | some d => d.volume
  | none => 0

end Filter

/-- A directive that is passed over, and why. -/
structure Ignored where
  text : String
  fault : DirectiveFault
  deriving Repr, DecidableEq

/-- The complaint about a directive that is passed over. -/
def Ignored.message (i : Ignored) : String := "ignoring \x60" ++ i.text ++ "\x60: " ++ i.fault.message

def ofVariable (raw : String) : List (Except Ignored Directive) :=
  ((raw.splitOn ",").filter (· ≠ "")).map fun part =>
    (Directive.parse (Text.trim part.toList)).mapError fun f => ⟨part, f⟩

/-- The variable in which people ask for more or less of the log. -/
def askedBy : String := "RUST_LOG"

end Log

/-- Why there can be no log. -/
inductive LoggingFault where
  | settings (f : LogFault)
  /-- The folder of the files cannot be made. -/
  | folder (f : Disk.Fault)
  /-- There is a log already. -/
  | twice
  deriving Repr, DecidableEq

namespace LoggingFault

def message : LoggingFault → String
  | settings f => f.message
  | folder f => "IO error: " ++ f.message
  | twice => "Logging setup failed: a global default trace dispatcher has already been set"

end LoggingFault

namespace LogSettings

open Log

/-- The directives of the settings, or the first that is none. -/
def ownDirectives (s : LogSettings) : Except LogFault (List Directive) :=
  let parts := ((s.directives.getD "").splitOn ",").map fun part => Text.trimmed part
  (parts.filter (· ≠ "")).mapM fun part =>
    (Directive.parse part.toList).mapError fun f => .directive part f.message

def filter (s : LogSettings) (e : Environment) : Except LogFault Filter := do
  let own ← s.ownDirectives
  let asked := (ofVariable ((e.get? askedBy).getD "")).filterMap Except.toOption
  return (asked ++ [Directive.ofVolume s.level.rank] ++ own).foldl Filter.add .empty

/-- What is said about directives of the variable that are passed over. -/
def complaints (e : Environment) : List String :=
  (ofVariable ((e.get? askedBy).getD "")).filterMap fun
    | .error i => some i.message
    | .ok _ => none

/-- Starts the log: the filter, and the disk with the folder of the files, if there are any. -/
def begin (s : LogSettings) (e : Environment) (cwd : String) (disk : Disk.Node) :
    Except LoggingFault (Filter × Disk.Node) := do
  let f ← (s.filter e).mapError .settings
  if s.output.hasFile then
    match Disk.makeFolders disk (Disk.path cwd s.folder) with
    | (.ok (), disk) => return (f, disk)
    | (.error e, _) => throw (.folder e)
  else return (f, disk)

end LogSettings

end Harvesting
