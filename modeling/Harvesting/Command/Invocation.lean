import Harvesting.Command.Usage
import Harvesting.Log.Filter

/-!
# Invocations

One run of the program: words are understood, settings are loaded, the log is started, and the command
is carried out.

* `Ending` — how a run ends: a number, and what was printed;
* `Opening`, `Opening.of` — a run up to its end, or up to the harvest;
* `Opening.afterHarvest` — how a run ends after a harvest.
-/

namespace Harvesting

/-- How a run of the program ends. -/
structure Ending where
  exit : Nat
  output : String
  /-- What was printed for people only. -/
  complaints : String
  deriving Repr, DecidableEq

namespace Ending

/-- The name and the version of the program. -/
def versionLine : String := "oai-harvest 0.1.0\n"

/-- The end after words that ask for no command. -/
def ofUsage (f : UsageFault) : Ending :=
  match f with
  | .versionWanted => ⟨f.exit, versionLine, ""⟩
  | .helpWanted => ⟨f.exit, Usage.help, ""⟩
  | f => ⟨f.exit, "", "error: " ++ f.message ++ "\n\n" ++ Usage.help⟩

def ofFault (complaints wording : String) : Ending :=
  ⟨1, "", complaints ++ "Error: " ++ wording ++ "\n"⟩

end Ending

/-- A run of the program up to its end or up to the harvest. -/
inductive Opening where
  | ended (e : Ending) (disk : Disk.Node)
  /-- Sources to run on a store, and what was printed for people only before. -/
  | harvest (once : Bool) (complaints : String) (ds : List Deployment) (b : Backend)

namespace Opening

/-- What a command failed to do, in front of the fault. -/
def attempted : Command → String
  | .run .. => "Harvest failed: "
  | .plan _ => "Failed to plan: "
  | .status => "Failed to read status: "
  | .reset source => "Failed to reset '" ++ source ++ "': "
  | .sample => ""

/-- A program that broke down ends with this. -/
def brokenExit : Nat := 101

/-- The harvest makes one cycle for each source. -/
def isOnce : Command → Bool
  | .run _ o => o.once
  | _ => false

/-- The log is more talkative on demand. -/
def logOf (s : HarvestSettings) (verbose : Bool) : LogSettings :=
  if verbose then { s.log with level := .debug } else s.log

/-- The wording of a fault of the log and of the fault behind it. -/
def loggingText (f : LoggingFault) : String :=
  match f with
  | .folder d => f.message ++ ": " ++ d.message
  | _ => f.message

/-- Carries out a command with settings. -/
def perform (m : Machine) (complaints : String) (s : HarvestSettings) (c : Command) : Opening :=
  match c.job m s with
  | .ok (.print screen disk) => .ended ⟨0, screen, complaints⟩ disk
  | .ok (.harvest ds b) => .harvest (isOnce c) complaints ds b
  | .error .broken => .ended ⟨brokenExit, "", complaints⟩ m.disk
  | .error f => .ended (.ofFault complaints (attempted c ++ f.chain)) m.disk

/-- The complaints of the log about a variable, a line each. -/
def logComplaints (e : Environment) : String :=
  Screen.lines (LogSettings.complaints e)

def ofArguments (m : Machine) (e : Environment) (a : Arguments) : Opening :=
  if a.command = .sample then .ended ⟨0, exampleSettings, ""⟩ m.disk
  else match HarvestSettings.load m.disk m.cwd e a.config with
    | .error f => .ended (.ofFault "" ("Failed to load configuration: " ++ f.message)) m.disk
    | .ok s =>
      let e := HarvestSettings.withVariableFile m.disk m.cwd e
      let complaints := logComplaints e
      match (logOf s a.verbose).begin e m.cwd m.disk with
      | .error f => .ended (.ofFault complaints ("Failed to initialize logging: " ++ loggingText f)) m.disk
      | .ok (_, disk) => perform { m with disk := disk } complaints s a.command

def of (m : Machine) (e : Environment) (words : List String) : Opening :=
  match Arguments.parse e words with
  | .error f => .ended (.ofUsage f) m.disk
  | .ok a => ofArguments m e a

/-- How a run ends after a harvest with these sums. -/
def afterHarvest (once : Bool) (complaints : String) (sums : List Summary) : Ending :=
  if once ∧ sums.any fun s => 0 < s.failedCycles then
    .ofFault complaints "one or more sources failed"
  else ⟨0, "", complaints⟩

end Opening

end Harvesting
