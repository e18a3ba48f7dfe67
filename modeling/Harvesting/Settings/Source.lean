import Harvesting.Plan.Planner
import Harvesting.Schedule.Grammar
import Harvesting.Settings.Environment
import Harvesting.Settings.Fault
import Harvesting.Tree.Bound
import Harvesting.Web.Address

/-!
# Settings of a source

One repository and how it is harvested.

* `SourceSettings` and its defaults; `ofTree`, `toJson` — reading and writing them;
* `withEnvironment` — settings overlaid with variables;
* `key` — the name of the source in the store;
* `check` — whether the settings can be used; the rules are looked at in a fixed order;
* `planner`, `template`, `schedule?` — what the harvest needs of them.
-/

namespace Harvesting

/-- One repository and how it is harvested. -/
structure SourceSettings where
  name : Option String
  url : String
  set : Option String
  metadataPrefix : String
  window : Window
  /-- Seconds between cycles, when there is no schedule. -/
  pollSecs : Nat
  schedule : Option String
  proxyHost : Option String
  /-- The port of the proxy; 0 stands for the usual one. -/
  proxyPort : Nat
  timeoutSecs : Nat
  index : String
  docType : Option String
  skewSecs : Nat
  /-- Seconds to wait when the store could not be read. -/
  cooldownSecs : Nat
  deriving Repr, DecidableEq

namespace SourceSettings

/-- The settings that apply where nothing is said. -/
def default : SourceSettings where
  name := none
  url := "http://localhost"
  set := none
  metadataPrefix := "oai_dc"
  window := ⟨none, none⟩
  pollSecs := 3600
  schedule := none
  proxyHost := none
  proxyPort := 0
  timeoutSecs := 60
  index := "oai"
  docType := none
  skewSecs := Planner.defaultSkew
  cooldownSecs := 60

/-! ### Reading and writing -/

def text (d : Tree.Dialect) : Tree → Except Tree.Mismatch String := Tree.string d "a string"

def text? (d : Tree.Dialect) : Tree → Except Tree.Mismatch (Option String) := Tree.optional (text d)

def count (d : Tree.Dialect) : Tree → Except Tree.Mismatch Nat := Tree.unsigned d "u64" 64

def port (d : Tree.Dialect) : Tree → Except Tree.Mismatch Nat := Tree.unsigned d "u16" 16

/-- The settings in the order in which a list gives them. -/
def schema (d : Tree.Dialect) : Tree.Schema := [
  ("name", Tree.check (text? d)),
  ("url", Tree.check (text d)),
  ("set", Tree.check (text? d)),
  ("metadata_prefix", Tree.check (text d)),
  ("from", Tree.check (Tree.bound d)),
  ("until", Tree.check (Tree.bound d)),
  ("poll_secs", Tree.check (count d)),
  ("schedule", Tree.check (text? d)),
  ("proxy_host", Tree.check (text? d)),
  ("proxy_port", Tree.check (port d)),
  ("timeout_secs", Tree.check (count d)),
  ("index", Tree.check (text d)),
  ("type", Tree.check (text? d)),
  ("clock_skew_secs", Tree.check (count d)),
  ("cooldown_secs", Tree.check (count d))]

def ofTree (d : Tree.Dialect) (t : Tree) : Except Tree.Mismatch SourceSettings := do
  let ms ← Tree.record d "SourceConfig" (schema d) 0 t
  return {
    name := ← ms.get "name" none (text? d)
    url := ← ms.get "url" default.url (text d)
    set := ← ms.get "set" none (text? d)
    metadataPrefix := ← ms.get "metadata_prefix" default.metadataPrefix (text d)
    window := ⟨← ms.get "from" none (Tree.bound d), ← ms.get "until" none (Tree.bound d)⟩
    pollSecs := ← ms.get "poll_secs" default.pollSecs (count d)
    schedule := ← ms.get "schedule" none (text? d)
    proxyHost := ← ms.get "proxy_host" none (text? d)
    proxyPort := ← ms.get "proxy_port" 0 (port d)
    timeoutSecs := ← ms.get "timeout_secs" default.timeoutSecs (count d)
    index := ← ms.get "index" default.index (text d)
    docType := ← ms.get "type" none (text? d)
    skewSecs := ← ms.get "clock_skew_secs" default.skewSecs (count d)
    cooldownSecs := ← ms.get "cooldown_secs" default.cooldownSecs (count d) }

/-- The settings as a value; absent bounds are left out. -/
def toJson (s : SourceSettings) : Json := Json.ofFields <|
  [("name", Json.ofString? s.name), ("url", .string s.url), ("set", Json.ofString? s.set),
    ("metadata_prefix", .string s.metadataPrefix)] ++
  (s.window.lower.map fun t => ("from", Json.string (Datestamp.format t))).toList ++
  (s.window.upper.map fun t => ("until", Json.string (Datestamp.format t))).toList ++
  [("poll_secs", .int s.pollSecs), ("schedule", Json.ofString? s.schedule),
    ("proxy_host", Json.ofString? s.proxyHost), ("proxy_port", .int s.proxyPort),
    ("timeout_secs", .int s.timeoutSecs), ("index", .string s.index),
    ("type", Json.ofString? s.docType), ("clock_skew_secs", .int s.skewSecs),
    ("cooldown_secs", .int s.cooldownSecs)]

/-! ### Variables -/

/-- A text that is not empty. -/
def nonempty? (s : String) : Option String := if s = "" then none else some s

/-- The number that a variable writes, below `bound`, or `n`. -/
def numberOr (e : Environment) (name : String) (bound n : Nat) : Nat :=
  ((e.get? name).bind (Text.Decimal.unsigned? bound)).getD n

/-- The bound that a variable writes, or `b`. -/
def boundOr (e : Environment) (name : String) (b : Option Instant) :
    Except Datestamp.Fault (Option Instant) :=
  match e.get? name with
  | some raw => (Datestamp.parse raw).map some
  | none => .ok b

/-- The settings overlaid with variables. A number that cannot be read is passed over. -/
def withEnvironment (s : SourceSettings) (e : Environment) : Except Datestamp.Fault SourceSettings := do
  let lower ← boundOr e "OAI_FROM" s.window.lower
  let upper ← boundOr e "OAI_UNTIL" s.window.upper
  return { s with
    url := (e.get? "OAI_URL").getD s.url
    set := ((e.get? "OAI_SET").map nonempty?).getD s.set
    metadataPrefix := (e.get? "OAI_METADATA_PREFIX").getD s.metadataPrefix
    window := ⟨lower, upper⟩
    proxyHost := ((e.get? "OAI_PROXY_HOST").map nonempty?).getD s.proxyHost
    pollSecs := numberOr e "OAI_POLL_SECS" (Nat.pow 2 64) s.pollSecs
    timeoutSecs := numberOr e "OAI_TIMEOUT_SECS" (Nat.pow 2 64) s.timeoutSecs
    proxyPort := numberOr e "OAI_PROXY_PORT" (Nat.pow 2 16) s.proxyPort }

/-! ### What the settings say -/

/-- The host and the path of a repository, or its address as it is written. -/
def location (url : String) : String :=
  match Address.parse url with
  | .ok a => a.hostText?.getD "oai" ++ a.pathText
  | .error _ => url

/-- The name of the source in the store: the given one, or one made of its location and set. -/
def key (s : SourceSettings) : String :=
  match s.name with
  | some n => n
  | none => Key.slug (location s.url ++ (s.set.map ("-" ++ ·)).getD "")

def timeout (s : SourceSettings) : Span := .ofSecs s.timeoutSecs
def poll (s : SourceSettings) : Span := .ofSecs s.pollSecs
def cooldown (s : SourceSettings) : Span := .ofSecs s.cooldownSecs

/-- The address of the proxy, if one is named. -/
def proxyUrl? (s : SourceSettings) : Option String :=
  s.proxyHost.map fun host =>
    "http://" ++ host ++ (if s.proxyPort = 0 then "" else ":" ++ toString s.proxyPort)

/-- How long a window must have been closed; none if that is too long to be told. -/
def skew? (s : SourceSettings) : Option Int := Planner.skewOf? s.skewSecs

def planner (s : SourceSettings) : Planner :=
  ⟨s.window, s.skew?.getD (Planner.defaultSkew * 1000000000)⟩

/-- A request with the parameters that all requests of the source share. -/
def template (s : SourceSettings) : Request := ⟨s.url, s.set, s.metadataPrefix, ⟨none, none⟩, none⟩

def schedule? (s : SourceSettings) : Except SettingsFault (Option Schedule) :=
  match s.schedule with
  | none => .ok none
  | some text =>
    match Schedule.parse? text with
    | some schedule => .ok (some schedule)
    | none => .error (.source s.key (.schedule text))

/-- The window ends before it starts. -/
def reversed? (w : Window) : Option (Instant × Instant) :=
  match w.lower, w.upper with
  | some lower, some upper => if upper < lower then some (lower, upper) else none
  | _, _ => none

/-- Whether the settings can be used. -/
def check (s : SourceSettings) : Except SettingsFault Unit := do
  let refuse (rule : SourceRule) : Except SettingsFault Unit := .error (.source s.key rule)
  if ¬ Key.isValid s.key then throw (.key s.key s.url)
  match Address.parse s.url with
  | .error f => refuse (.address s.url f)
  | .ok a => if a.scheme ≠ "http" ∧ a.scheme ≠ "https" then refuse .scheme
  if Text.trim s.metadataPrefix.toList = [] then refuse .noPrefix
  if let some (lower, upper) := reversed? s.window then refuse (.reversed lower upper)
  if s.timeoutSecs = 0 then refuse .noTimeout
  if s.skew?.isNone then refuse (.skew s.skewSecs)
  if s.schedule.isNone ∧ s.pollSecs = 0 then refuse .noPoll
  let _ ← s.schedule?

end SourceSettings

end Harvesting
