import Harvesting.Settings.Log
import Harvesting.Settings.Sink
import Harvesting.Settings.Source
import Harvesting.Settings.Store

/-!
# Settings of a harvest

All settings together: the sources, the sink, the store and the log.

* `HarvestSettings`; `ofTree`, `toJson` — reading and writing them;
* `check` — whether they can be used: every source on its own, no two sources of one name, the sink and
  the store;
* `select` — the sources of a name, or all.
-/

namespace Harvesting

/-- All settings of a harvest. -/
structure HarvestSettings where
  sources : List SourceSettings
  sink : SinkSettings
  store : StoreSettings
  log : LogSettings
  deriving Repr, DecidableEq

namespace HarvestSettings

/-- The settings that apply where nothing is said. -/
def default : HarvestSettings := ⟨[], .default, .default, .default⟩

def sourcesOf : Tree → Except Tree.Mismatch (List SourceSettings) :=
  Tree.items .settings (SourceSettings.ofTree .settings)

def schema : Tree.Schema := [
  ("sources", Tree.check sourcesOf),
  ("sink", Tree.check (SinkSettings.ofTree .settings)),
  ("checkpoint", Tree.check StoreSettings.ofTree),
  ("logging", Tree.check (LogSettings.ofTree .settings))]


def ofTree (t : Tree) : Except Tree.Mismatch HarvestSettings := do
  let ms ← Tree.record .settings "HarvestConfig" schema 0 t
  return {
    sources := ← ms.get "sources" [] sourcesOf
    sink := ← ms.get "sink" .default (SinkSettings.ofTree .settings)
    store := ← ms.get "checkpoint" .default StoreSettings.ofTree
    log := ← ms.get "logging" .default (LogSettings.ofTree .settings) }

def toJson (s : HarvestSettings) : Json := Json.ofFields [
  ("sources", .array (s.sources.map SourceSettings.toJson)), ("sink", s.sink.toJson),
  ("checkpoint", s.store.toJson), ("logging", s.log.toJson)]

/-- Whether each source can be used, and has a name that none of those before it has. -/
def checkSources (seen : List String) : List SourceSettings → Except SettingsFault Unit
  | [] => .ok ()
  | s :: r => do
    s.check
    if seen.contains s.key then throw (.duplicate s.key)
    checkSources (s.key :: seen) r

/-- Whether the settings can be used. -/
def check (s : HarvestSettings) : Except SettingsFault Unit := do
  checkSources [] s.sources
  s.sink.check
  if s.store = .database "" then throw .noDatabaseAddress

def select (s : HarvestSettings) (name : Option String) : Except SettingsFault (List SourceSettings) :=
  match name with
  | none => .ok s.sources
  | some name =>
    let found := s.sources.filter (·.key = name)
    if found = [] then .error (.unknownSource name) else .ok found

end HarvestSettings

end Harvesting
