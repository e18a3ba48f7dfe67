import Harvesting.Output.Sink
import Harvesting.Protocol.Page
import Harvesting.Settings.Load

/-!
# Faults of commands

* `CommandFault` — why a command comes to nothing;
* `CommandFault.message`, `CommandFault.chain` — its wording, and the wording of it and of the faults
  behind it.
-/

namespace Harvesting

/-- Why a command comes to nothing. -/
inductive CommandFault where
  | load (f : LoadFault)
  | settings (f : SettingsFault)
  | store (f : Store.Fault)
  | source (f : SourceFault)
  | sink (f : SinkFault)
  /--
  What cannot be gone on with: the planner had to name a date that no calendar has, or more requests were to
  be made at one time than can be counted.
  -/
  | broken
  deriving Repr, DecidableEq

namespace CommandFault

def message : CommandFault → String
  | load f => f.message
  | settings f => f.message
  | store f => f.message
  | source f => f.message
  | sink f => f.message
  | broken => "broken off"

/-- What the disk said, where it is behind a fault. -/
def causes : CommandFault → List String
  | store (.io reason) => [reason]
  | _ => []

/-- The wording of a fault and of those behind it. -/
def chain (f : CommandFault) : String := String.intercalate ": " (f.message :: f.causes)

end CommandFault

end Harvesting
