import Harvesting.Command.Job
import Harvesting.Settings.Environment

/-!
# Arguments

The words behind the program's name: a command with its options, and options for every command, which
may stand in front of it too. An option has a long name and may have a letter; letters can be run
together, and a value can be attached or follow.

* `UsageFault` — why words cannot be understood; asking for help is one of these;
* `Opt`, `Verb` — the options, and the names of the commands with the options of each;
* `Given`, `Given.read` — the options given at one place, and what follows them;
* `Arguments`, `Arguments.parse` — the command that words ask for.

An option that is given twice, or without its value, is found when the words after it are read; faults
come in the order in which they are found.
-/

namespace Harvesting

/-- Why words cannot be understood. -/
inductive UsageFault where
  | helpWanted
  | versionWanted
  | nothing
  | noCommand
  | unknownCommand
  | unknownArgument
  /-- An option without its value, or with an empty one where it cannot be. -/
  | badValue
  /-- A value for an option that takes none. -/
  | needlessValue
  | repeated
  /-- A command without an option that it cannot do without. -/
  | missing
  deriving Repr, DecidableEq

/-- How the program ends after a fault. -/
def UsageFault.exit : UsageFault → Nat
  | helpWanted => 0
  | versionWanted => 0
  | _ => 2

/-- The options. -/
inductive Opt where
  | help
  | version
  | config
  | verbose
  | source
  | once
  | dryRun
  deriving Repr, DecidableEq

namespace Opt

def name : Opt → String
  | help => "help"
  | version => "version"
  | config => "config"
  | verbose => "verbose"
  | source => "source"
  | once => "once"
  | dryRun => "dry-run"

def letter? : Opt → Option Char
  | help => some 'h'
  | version => some 'V'
  | config => some 'c'
  | verbose => some 'v'
  | source => some 's'
  | once => none
  | dryRun => none

def takesValue : Opt → Bool
  | config => true
  | source => true
  | _ => false

end Opt

/-- The names of the commands. -/
inductive Verb where
  | run
  | plan
  | status
  | reset
  | sample
  deriving Repr, DecidableEq

namespace Verb

def word : Verb → String
  | run => "run"
  | plan => "plan"
  | status => "status"
  | reset => "reset"
  | sample => "example"

def all : List Verb := [run, plan, status, reset, sample]

def ofWord? (w : String) : Option Verb := all.find? (·.word = w)

/-- The options that stand behind a command, or in front of it. -/
def options : Option Verb → List Opt
  | none => [.config, .verbose, .help, .version]
  | some run => [.source, .once, .dryRun, .config, .verbose, .help]
  | some plan => [.source, .config, .verbose, .help]
  | some reset => [.source, .config, .verbose, .help]
  | some status => [.config, .verbose, .help]
  | some sample => [.config, .verbose, .help]

def helpWord : String := "help"

end Verb

/-- The options given at one place. -/
structure Given where
  /-- The options with their values, which are empty for those that take none. -/
  values : List (Opt × String)
  /-- The last option that takes a value, and its value once it is there. -/
  pending : Option (Opt × Option String)

namespace Given

def empty : Given := ⟨[], none⟩

def get? (g : Given) (o : Opt) : Option String := g.values.lookup o

def has (g : Given) (o : Opt) : Bool := (g.get? o).isSome

def enter (g : Given) (o : Opt) (value : String) : Except UsageFault Given :=
  if o = .help then .error .helpWanted
  else if o = .version then .error .versionWanted
  else if g.has o then .error .repeated
  else if o = .config ∧ value = "" then .error .badValue
  else .ok ⟨g.values ++ [(o, value)], none⟩

/-- Enters the option that was pending. -/
def settle (g : Given) : Except UsageFault Given :=
  match g.pending with
  | none => .ok g
  | some (_, none) => .error .badValue
  | some (o, some value) => { g with pending := none }.enter o value

/-- Takes an option, with an attached value if there is one. -/
def take (g : Given) (o : Opt) (attached : Option String) : Except UsageFault Given := do
  match o.takesValue, attached with
  | true, none => return { ← g.settle with pending := some (o, none) }
  | true, some value => (← g.settle).enter o value
  | false, none => (← g.settle).enter o ""
  | false, some _ => throw .needlessValue

/-- Takes a word with a long name, behind its strokes. -/
def takeLong (options : List Opt) (g : Given) (cs : List Char) : Except UsageFault Given :=
  let name := cs.takeWhile (· ≠ '=')
  let attached := match cs.drop name.length with
    | _ :: value => some (String.ofList value)
    | [] => none
  match options.find? (·.name = String.ofList name) with
  | some o => g.take o attached
  | none => .error .unknownArgument

def takeLetters (options : List Opt) : Given → List Char → Except UsageFault Given
  | g, [] => .ok g
  | g, c :: r =>
    match options.find? (·.letter? = some c) with
    | none => .error .unknownArgument
    | some o =>
      if o.takesValue then
        match r with
        | [] => g.take o none
        | '=' :: value => g.take o (some (String.ofList value))
        | value => g.take o (some (String.ofList value))
      else do takeLetters options (← g.take o none) r

/-- What is wrong with a word that is neither option nor value nor command. -/
def stray (verb : Option Verb) : UsageFault :=
  if verb.isNone then .unknownCommand else .unknownArgument

/-- What is wrong with the words after two strokes alone, if there are any. -/
def afterStrokes (verb : Option Verb) (g : Given) : List String → Except UsageFault Given
  | [] => .ok g
  | w :: _ =>
    if verb.isNone ∧ (w = Verb.helpWord ∨ (Verb.ofWord? w).isSome) then .error .unknownArgument
    else .error (stray verb)

/-- What comes of asking for help on some words. -/
def helpOn : List String → UsageFault
  | [] => .helpWanted
  | [w] => if w = Verb.helpWord ∨ (Verb.ofWord? w).isSome then .helpWanted else .unknownCommand
  | _ => .unknownCommand

/-- The last option waits for its value. -/
def waits (g : Given) : Bool := g.pending.any (·.2.isNone)

/-- The options at one place, and the command that ends them with the words behind it. -/
def read (verb : Option Verb) (g : Given) : List String →
    Except UsageFault (Given × Option (Verb × List String))
  | [] => do return (g, none)
  | w :: ws => do
    let mayBeCommand := verb.isNone ∧ ¬ g.waits
    if mayBeCommand ∧ w = Verb.helpWord then throw (helpOn ws)
    match (if mayBeCommand then Verb.ofWord? w else none), w.toList with
    | some v, _ => return (g, some (v, ws))
    | none, ['-', '-'] => return (← afterStrokes verb g ws, none)
    | none, '-' :: '-' :: cs => read verb (← takeLong (Verb.options verb) g cs) ws
    | none, '-' :: c :: cs => read verb (← takeLetters (Verb.options verb) g (c :: cs)) ws
    | none, _ =>
      match g.pending with
      | some (o, none) => read verb { g with pending := some (o, some w) } ws
      | _ => throw (stray verb)

end Given

/-- What words ask for. -/
structure Arguments where
  command : Command
  config : Option String
  verbose : Bool
  deriving Repr, DecidableEq

namespace Arguments

/-- The variable that names the file of settings. -/
def configVariable : String := "OAI_CONFIG"

/-- The file that the variable names. It counts where the option is not given, and must have a name. -/
def fallback (e : Environment) (g : Given) : Except UsageFault (Option String) :=
  match g.get? .config, e.get? configVariable with
  | some _, _ => .ok none
  | none, some "" => .error .badValue
  | none, file => .ok file

def commandOf (v : Verb) (g : Given) : Except UsageFault Command :=
  match v with
  | .run => .ok (.run (g.get? .source) ⟨g.has .once, g.has .dryRun⟩)
  | .plan => .ok (.plan (g.get? .source))
  | .status => .ok .status
  | .reset =>
    match g.get? .source with
    | some source => .ok (.reset source)
    | none => .error .missing
  | .sample => .ok .sample

def parse (e : Environment) (words : List String) : Except UsageFault Arguments := do
  let (front, rest) ← Given.read none .empty words
  match rest with
  | none =>
    let front ← front.settle
    let file ← fallback e front
    if front.values = [] ∧ file = none then throw .nothing else throw .noCommand
  | some (v, words) =>
    let (back, _) ← Given.read (some v) .empty words
    let back ← back.settle
    let _ ← fallback e back
    let command ← commandOf v back
    let front ← front.settle
    let file ← fallback e front
    return ⟨command, (back.get? .config).or ((front.get? .config).or file),
      front.has .verbose ∨ back.has .verbose⟩

end Arguments

end Harvesting
