import Harvesting.Format.DotEnv
import Harvesting.Settings.File
import Harvesting.Settings.Harvest
import Harvesting.Text.Utf8
import Harvesting.Tree.Path

/-!
# Loading settings

Settings come from a file and from variables, the variables having the last word. Variables named
`OAI_…` set what the rest of their name leads to, two underscores standing for a point.

* `LoadFault` — why settings cannot be loaded, with its wording;
* `HarvestSettings.ofToml` — the settings of one text;
* `HarvestSettings.load` — the settings of a file, of a file of variables and of the variables.

Without any source in them, a single one is made from its own variables.
-/

namespace Harvesting

/-- Why settings cannot be loaded. -/
inductive LoadFault where
  /-- The text is not of its format; what the format's reader says, as far as it says anything. -/
  | text (reason : String)
  /-- The file is of no format that is known. -/
  | unknownFormat (path : String)
  | settings (f : SettingsFault)
  | datestamp (f : Datestamp.Fault)
  | log (f : LogFault)
  deriving Repr, DecidableEq

def LoadFault.message : LoadFault → String
  | .text reason => "configuration error: " ++ reason
  | .unknownFormat p =>
    "configuration error: configuration file \"" ++ p ++ "\" is not of a registered file format"
  | .settings f => f.message
  | .datestamp f => f.message
  | .log f => f.message

namespace HarvestSettings

/-- The settings of layers, each overlaid by those after it. -/
def ofLayers (layers : List (List (String × Tree))) : Except LoadFault HarvestSettings :=
  (ofTree (layers.foldl (fun t layer => t.overlay layer) (.table none []))).mapError
    (.settings ∘ .mismatch)

def checked (s : HarvestSettings) : Except LoadFault HarvestSettings := do
  s.check.mapError .settings
  return s

def ofToml (text : String) : Except LoadFault HarvestSettings := do
  match FileFormat.toml.read? none text with
  | none => throw (.text "")
  | some layer => (← ofLayers [layer]).checked

/-- The value that the text of a variable writes: a switch, a number, or a text. -/
def variableValue (s : String) : Scalar :=
  let cs := s.toList
  let lower := s.map Char.toLower
  if lower = "true" then .bool true
  else if lower = "false" then .bool false
  else match Literal.whole? cs, Literal.real? cs with
    | some n, _ => .int n
    | none, some x => .real x
    | none, none => .string s

/-- What the names of variables start with. -/
def variablePrefix : String := "oai_"

/-- The text with every pair of underscores a point. -/
def pointed : List Char → List Char
  | '_' :: '_' :: r => '.' :: pointed r
  | c :: r => c :: pointed r
  | [] => []

def variableLayer (e : Environment) : List (String × Tree) :=
  e.entries.filterMap fun (name, value) =>
    let cs := name.toList.map Char.toLower
    if variablePrefix.toList.isPrefixOf cs then
      some (String.ofList (pointed (cs.drop variablePrefix.length)),
        .scalar (some "the environment") (variableValue value))
    else none

def variableFile : String := ".env"

/-- The file of that name in a folder, or in the nearest folder above it; `above` is the folder's path
from its end. -/
def nearest? (disk : Disk.Node) (name : String) : (above : List String) → Option Disk.Bytes
  | [] => (Disk.read disk [name]).toOption
  | folder :: r =>
    match Disk.read disk ((folder :: r).reverse ++ [name]) with
    | .ok content => some content
    | .error _ => nearest? disk name r

/-- The variables of an environment and of the file of variables that belongs to a folder. -/
def withVariableFile (disk : Disk.Node) (folder : String) (e : Environment) : Environment :=
  match nearest? disk variableFile (Disk.path folder "").reverse with
  | some content => DotEnv.read e (String.ofList (Utf8.decodeLossy content))
  | none => e

/-- What a file sets; nothing without a path. -/
def fileLayer (disk : Disk.Node) (folder : String) (path : Option String) :
    Except LoadFault (List (String × Tree)) :=
  match path with
  | none => .ok []
  | some path =>
    match FileFormat.find disk folder path with
    | .missing => .error (.settings (.missingFile path))
    | .unknown => .error (.unknownFormat (Disk.join folder path))
    | .file format found content =>
      let text := String.ofList (Utf8.decodeLossy content)
      match format.read? (some found) text with
      | some layer => .ok layer
      | none => .error (.text (format.complaint found text))

/-- The settings of a file, of the file of variables, and of variables. -/
def load (disk : Disk.Node) (folder : String) (e : Environment) (path : Option String) :
    Except LoadFault HarvestSettings := do
  let e := withVariableFile disk folder e
  let s ← ofLayers [← fileLayer disk folder path, variableLayer e]
  let sources ←
    if s.sources = [] then do
      let source ← (SourceSettings.default.withEnvironment e).mapError LoadFault.datestamp
      pure [source]
    else pure s.sources
  let log ← (s.log.withEnvironment e).mapError LoadFault.log
  { s with sources, log }.checked

end HarvestSettings

end Harvesting
