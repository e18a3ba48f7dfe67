import Harvesting.Command.Fault
import Harvesting.Cycle.Runner
import Harvesting.Output.Outlet
import Harvesting.Protocol.Client

/-!
# Deployments

What it takes to run a source: when, against which repository, and into which sink.

* `Deployment`, `Deployment.of` — a source ready to run;
* `Deployment.all` — the sources of a name, or all.
-/

namespace Harvesting

/-- A source ready to run. -/
structure Deployment where
  runner : RunnerSettings
  client : Client
  outlet : Outlet

/-- How sources are run. -/
structure RunOptions where
  /-- One cycle each. -/
  once : Bool
  /-- Documents stay in memory. -/
  dryRun : Bool
  deriving Repr, DecidableEq

namespace Deployment

/-- The fault of a command that has no sink. -/
def faultOf : Batcher.Refusal → CommandFault
  | .sink f => .sink f
  | .tooManyLanes => .broken

/-- The sink of a source, on a machine with so many processors. -/
def outletOf (s : SinkSettings) (dryRun : Bool) (processors : Nat) : Except CommandFault Outlet := do
  if dryRun then return .shelf .empty
  else return .bulk (.start (← (Batcher.of s processors).mapError faultOf))

def of (sink : SinkSettings) (o : RunOptions) (processors : Nat) (s : SourceSettings) :
    Except CommandFault Deployment := do
  let trigger ← (Trigger.of s).mapError .settings
  let client ← (Client.of s).mapError .source
  let outlet ← outletOf sink o.dryRun processors
  return ⟨⟨.of s, trigger, o.once⟩, client, outlet⟩

/-- The sources of a name, or all, ready to run. -/
def all (s : HarvestSettings) (name : Option String) (o : RunOptions) (processors : Nat) :
    Except CommandFault (List Deployment) := do
  let sources ← (s.select name).mapError .settings
  sources.mapM (of s.sink o processors)

end Deployment

end Harvesting
