import Harvesting.Json.Value
import Harvesting.Settings.Environment
import Harvesting.Tree.Decode

/-!
# Settings of the log

* `LogLevel`, `LogOutput`, `LogFormat` — each with its names, `name` writing and `read` accepting more
  than one of them in any letter case;
* `LogSettings` and its defaults; `ofTree`, `toJson` — reading and writing them;
* `withEnvironment` — settings overlaid with variables.
-/

namespace Harvesting

/-- How much is logged; each level includes those before it. -/
inductive LogLevel where
  | error
  | warn
  | info
  | debug
  | trace
  deriving Repr, DecidableEq

/-- Where the log goes. -/
inductive LogOutput where
  | console
  | file
  | both
  deriving Repr, DecidableEq

/-- How a line of the log looks. -/
inductive LogFormat where
  | text
  | json
  deriving Repr, DecidableEq

/-- A name that the log does not know. -/
inductive LogFault where
  | level (name : String)
  | output (name : String)
  | format (name : String)
  /-- A filter directive, and why it cannot be read. -/
  | directive (text reason : String)
  deriving Repr, DecidableEq

def LogFault.message : LogFault → String
  | .level n => "Configuration error: invalid log level: " ++ n
  | .output n => "Configuration error: invalid log output: " ++ n
  | .format n => "Configuration error: invalid log format: " ++ n
  | .directive t r => "Configuration error: invalid filter directive '" ++ t ++ "': " ++ r

namespace LogLevel

def choices : List (String × LogLevel) :=
  [("trace", trace), ("debug", debug), ("info", info), ("warn", warn), ("error", error)]

def name : LogLevel → String
  | error => "error"
  | warn => "warn"
  | info => "info"
  | debug => "debug"
  | trace => "trace"

def read (s : String) : Except LogFault LogLevel :=
  match (choices ++ [("warning", warn)]).lookup (Tree.lower s) with
  | some l => .ok l
  | none => .error (.level s)

def rank : LogLevel → Nat
  | error => 1
  | warn => 2
  | info => 3
  | debug => 4
  | trace => 5

end LogLevel

namespace LogOutput

def choices : List (String × LogOutput) := [("console", console), ("file", file), ("both", both)]

def name : LogOutput → String
  | console => "console"
  | file => "file"
  | both => "both"

def read (s : String) : Except LogFault LogOutput :=
  match (choices ++ [("stdout", console), ("all", both)]).lookup (Tree.lower s) with
  | some o => .ok o
  | none => .error (.output s)

/-- Whether lines go to a file. -/
def hasFile : LogOutput → Bool
  | console => false
  | file | both => true

end LogOutput

namespace LogFormat

def choices : List (String × LogFormat) := [("text", text), ("json", json)]

def name : LogFormat → String
  | text => "text"
  | json => "json"

def read (s : String) : Except LogFault LogFormat :=
  match (choices ++ [("pretty", text)]).lookup (Tree.lower s) with
  | some f => .ok f
  | none => .error (.format s)

end LogFormat

/-- What is logged, where and how. -/
structure LogSettings where
  level : LogLevel
  output : LogOutput
  format : LogFormat
  folder : String
  /-- What the names of log files start with. -/
  filePrefix : String
  /-- Directives beside the level, separated by commas. -/
  directives : Option String
  location : Bool
  threads : Bool
  targets : Bool
  deriving Repr, DecidableEq

namespace LogSettings

/-- The settings that apply where nothing is said. -/
def default : LogSettings :=
  ⟨.info, .console, .text, "./logs", "oai-harvest", none, false, false, true⟩

def levelOf (d : Tree.Dialect) : Tree → Except Tree.Mismatch LogLevel :=
  Tree.choice d "LogLevel" LogLevel.choices
def outputOf (d : Tree.Dialect) : Tree → Except Tree.Mismatch LogOutput :=
  Tree.choice d "LogOutput" LogOutput.choices
def formatOf (d : Tree.Dialect) : Tree → Except Tree.Mismatch LogFormat :=
  Tree.choice d "LogFormat" LogFormat.choices
def directivesOf (d : Tree.Dialect) : Tree → Except Tree.Mismatch (Option String) :=
  Tree.optional (Tree.string d "a string")

/-- The settings in the order in which a list gives them. -/
def schema (d : Tree.Dialect) : Tree.Schema := [
  ("level", Tree.check (levelOf d)),
  ("output", Tree.check (outputOf d)),
  ("format", Tree.check (formatOf d)),
  ("log_dir", Tree.check (Tree.string d "path string")),
  ("log_file_prefix", Tree.check (Tree.string d "a string")),
  ("filter_directives", Tree.check (directivesOf d)),
  ("include_location", Tree.check (Tree.boolean d)),
  ("include_thread_ids", Tree.check (Tree.boolean d)),
  ("include_targets", Tree.check (Tree.boolean d))]

def ofTree (d : Tree.Dialect) (t : Tree) : Except Tree.Mismatch LogSettings := do
  let ms ← Tree.record d "LogConfig" (schema d) 0 t
  return {
    level := ← ms.get "level" default.level (levelOf d)
    output := ← ms.get "output" default.output (outputOf d)
    format := ← ms.get "format" default.format (formatOf d)
    folder := ← ms.get "log_dir" default.folder (Tree.string d "path string")
    filePrefix := ← ms.get "log_file_prefix" default.filePrefix (Tree.string d "a string")
    directives := ← ms.get "filter_directives" none (directivesOf d)
    location := ← ms.get "include_location" false (Tree.boolean d)
    threads := ← ms.get "include_thread_ids" false (Tree.boolean d)
    targets := ← ms.get "include_targets" true (Tree.boolean d) }

def toJson (s : LogSettings) : Json := Json.ofFields [
  ("level", .string s.level.name), ("output", .string s.output.name),
  ("format", .string s.format.name), ("log_dir", .string s.folder),
  ("log_file_prefix", .string s.filePrefix), ("filter_directives", Json.ofString? s.directives),
  ("include_location", .bool s.location), ("include_thread_ids", .bool s.threads),
  ("include_targets", .bool s.targets)]

/-- What a variable says, or `a`. -/
def variableOr {α : Type} (e : Environment) (name : String) (read : String → Except LogFault α) (a : α) :
    Except LogFault α :=
  match e.get? name with
  | some raw => read raw
  | none => .ok a

/-- The settings overlaid with variables. -/
def withEnvironment (s : LogSettings) (e : Environment) : Except LogFault LogSettings := do
  return { s with
    level := ← variableOr e "OAI_LOG_LEVEL" LogLevel.read s.level
    output := ← variableOr e "OAI_LOG_OUTPUT" LogOutput.read s.output
    format := ← variableOr e "OAI_LOG_FORMAT" LogFormat.read s.format
    folder := (e.get? "OAI_LOG_DIR").getD s.folder
    filePrefix := (e.get? "OAI_LOG_FILE_PREFIX").getD s.filePrefix
    directives := (e.get? "OAI_LOG_FILTER").or s.directives }

end LogSettings

end Harvesting
