import Harvesting.Command.Arguments

/-!
# Usage

What people are told who ask for help, or whose words cannot be understood.

* `Usage.help` — the commands and the options;
* `UsageFault.message` — the wording of a fault.
-/

namespace Harvesting

namespace Usage

def purpose : Verb → String
  | .run => "Harvest the sources"
  | .plan => "Show what the next cycle of each source would request"
  | .status => "Show how far each source got"
  | .reset => "Forget how far a source got"
  | .sample => "Print settings to start from"

def meaning : Opt → String
  | .help => "Print help"
  | .version => "Print the version"
  | .config => "The file of settings"
  | .verbose => "Log more"
  | .source => "The source that is meant"
  | .once => "Stop after one cycle"
  | .dryRun => "Keep documents in memory"

def form (o : Opt) : String :=
  (o.letter?.map fun c => "-" ++ c.toString ++ ", ").getD "    " ++ "--" ++ o.name ++
    (if o.takesValue then " <" ++ o.name.map Char.toUpper ++ ">" else "")

def line (width : Nat) (term text : String) : String :=
  "  " ++ term ++ String.ofList (List.replicate (width - term.length) ' ') ++ "  " ++ text ++ "\n"

def options : List Opt := [.config, .verbose, .source, .once, .dryRun, .help, .version]

def help : String :=
  "Usage: oai-harvest [OPTIONS] <COMMAND>\n\nCommands:\n" ++
    String.join (Verb.all.map fun v => line 8 v.word (purpose v)) ++ "\nOptions:\n" ++
    String.join (options.map fun o => line 21 (form o) (meaning o))

end Usage

def UsageFault.message : UsageFault → String
  | helpWanted => ""
  | versionWanted => ""
  | nothing => "a command is needed"
  | noCommand => "a command is needed"
  | unknownCommand => "there is no such command"
  | unknownArgument => "an argument is not expected"
  | badValue => "an option needs a value"
  | needlessValue => "an option takes no value"
  | repeated => "an option is given twice"
  | missing => "an option is missing"

end Harvesting
