import Harvesting.Store.Basic
import Harvesting.Web.Host

/-!
# Faults of settings

* `SettingsFault` — why settings cannot be used, with its wording.
-/

namespace Harvesting

/-- Why the settings of a source cannot be used. -/
inductive SourceRule where
  | address (url : String) (fault : AddressFault)
  /-- The repository is not reached over HTTP. -/
  | scheme
  | noPrefix
  /-- The window ends before it starts. -/
  | reversed (lower upper : Instant)
  | noTimeout
  | skew (secs : Nat)
  | noPoll
  | schedule (text : String)
  deriving Repr, DecidableEq

def SourceRule.message : SourceRule → String
  | .address url f => "invalid url '" ++ url ++ "': " ++ f.message
  | .scheme => "url must be http or https"
  | .noPrefix => "metadata_prefix must not be empty"
  | .reversed lower upper =>
    "from (" ++ Datestamp.format lower ++ ") is after until (" ++ Datestamp.format upper ++ ")"
  | .noTimeout => "timeout_secs must be greater than 0"
  | .skew n => "clock_skew_secs " ++ toString n ++ " is out of range"
  | .noPoll => "poll_secs must be greater than 0"
  | .schedule t => "invalid schedule '" ++ t ++ "'"

/-- Why settings cannot be used. -/
inductive SettingsFault where
  /-- A source whose key the store refuses. -/
  | key (key url : String)
  | source (key : String) (rule : SourceRule)
  | duplicate (key : String)
  | unknownSource (name : String)
  /-- A setting of the sink that has to be positive. -/
  | zero (name : String)
  | sinkAddress (url : String) (fault : AddressFault)
  | noDatabaseAddress
  /-- Checkpoints in a database, which this build does not have. -/
  | noDatabase
  | mismatch (m : Tree.Mismatch)
  | missingFile (path : String)
  deriving Repr, DecidableEq

namespace SettingsFault

/-- What is wrong, without the words in front that say that it is the settings. -/
def reason : SettingsFault → String
  | key k url => (Store.Fault.invalidKey k).message ++ "; set an explicit `name` for " ++ url
  | source k rule => "source '" ++ k ++ "': " ++ rule.message
  | duplicate k => "duplicate source name '" ++ k ++ "'; give each source a distinct `name`"
  | unknownSource n => "no source named '" ++ n ++ "'"
  | zero n => n ++ " must be greater than 0"
  | sinkAddress url f => "sink.url '" ++ url ++ "': " ++ f.message
  | noDatabaseAddress => "checkpoint.url must not be empty"
  | noDatabase => "checkpoint backend 'postgres' requires the `database` feature"
  | mismatch m => m.message
  | missingFile p => "configuration file \"" ++ p ++ "\" not found"

def message (f : SettingsFault) : String := "configuration error: " ++ f.reason

end SettingsFault

end Harvesting
