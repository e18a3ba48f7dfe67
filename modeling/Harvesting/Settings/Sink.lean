import Harvesting.Json.Value
import Harvesting.Settings.Fault
import Harvesting.Tree.Decode
import Harvesting.Web.Address

/-!
# Settings of the sink

* `SinkSettings` and its defaults; `ofTree`, `toJson` — reading and writing them;
* `check` — whether the settings can be used.
-/

namespace Harvesting

/-- Where and how documents are written. -/
structure SinkSettings where
  url : String
  /-- Documents in one request. -/
  batchSize : Nat
  /-- Requests at one time; none stands for the number of processors. -/
  concurrency : Option Nat
  timeoutSecs : Nat
  deriving Repr, DecidableEq

namespace SinkSettings

/-- The settings that apply where nothing is said. -/
def default : SinkSettings := ⟨"http://localhost:9200", 1000, none, 60⟩

def size (d : Tree.Dialect) : Tree → Except Tree.Mismatch Nat := Tree.unsigned d "usize" 64

/-- The settings in the order in which a list gives them. -/
def schema (d : Tree.Dialect) : Tree.Schema := [
  ("url", Tree.check (Tree.string d "a string")),
  ("max_bulk_actions", Tree.check (size d)),
  ("max_concurrent_bulk_requests", Tree.check (size d)),
  ("bulk_timeout_secs", Tree.check (Tree.unsigned d "u64" 64))]

def ofTree (d : Tree.Dialect) (t : Tree) : Except Tree.Mismatch SinkSettings := do
  let ms ← Tree.record d "SinkConfig" (schema d) 0 t
  return {
    url := ← ms.get "url" default.url (Tree.string d "a string")
    batchSize := ← ms.get "max_bulk_actions" default.batchSize (size d)
    concurrency := ← ms.get "max_concurrent_bulk_requests" none fun t => (size d t).map some
    timeoutSecs := ← ms.get "bulk_timeout_secs" default.timeoutSecs (Tree.unsigned d "u64" 64) }

/-- The settings as a value; the number of requests is left out where it is not set. -/
def toJson (s : SinkSettings) : Json := Json.ofFields <|
  [("url", .string s.url), ("max_bulk_actions", .int s.batchSize)] ++
  (s.concurrency.map fun n => ("max_concurrent_bulk_requests", Json.int n)).toList ++
  [("bulk_timeout_secs", .int s.timeoutSecs)]

def timeout (s : SinkSettings) : Span := .ofSecs s.timeoutSecs

/-- Whether the settings can be used. -/
def check (s : SinkSettings) : Except SettingsFault Unit := do
  if s.batchSize = 0 then throw (.zero "sink.max_bulk_actions")
  if s.concurrency = some 0 then throw (.zero "sink.max_concurrent_bulk_requests")
  if s.timeoutSecs = 0 then throw (.zero "sink.bulk_timeout_secs")
  match Address.parse s.url with
  | .ok _ => return
  | .error f => throw (.sinkAddress s.url f)

end SinkSettings

end Harvesting
