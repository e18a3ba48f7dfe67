import Harvesting.Json.Value
import Harvesting.Protocol.Page
import Harvesting.Text.Blank

/-!
# Documents

What is written to the index for a record.

* `Document` — an identified JSON value for an index;
* `RecordFault` — why a record has no document;
* `Transformer`, `Transformer.documents` — the documents of a record: its header and its raw metadata
  in one JSON object. A deleted record has none.
-/

namespace Harvesting

/-- A value to be kept in an index under an id; the same id replaces what was there. -/
structure Document where
  id : String
  index : String
  docType : Option String
  source : Json
  deriving Repr, Inhabited

/-- Why a record has no document. -/
structure RecordFault where
  identifier : String
  reason : String
  deriving Repr, DecidableEq

def RecordFault.message (f : RecordFault) : String :=
  "cannot transform record '" ++ f.identifier ++ "': " ++ f.reason

/-- Where the documents go. -/
structure Transformer where
  index : String
  docType : Option String
  deriving Repr, DecidableEq

namespace Transformer

def source (r : Record) (metadata : String) : Json :=
  Json.ofFields [
    ("identifier", .string r.identifier),
    ("datestamp", Json.ofString? r.datestamp),
    ("sets", .array (r.sets.map .string)),
    ("metadata", .string metadata)]

/-- The documents of a record. A blank identifier is none; a record that is kept has metadata. -/
def documents (t : Transformer) (r : Record) : Except RecordFault (List Document) :=
  if Text.trim r.identifier.toList = [] then
    .error ⟨"<missing>", "record header has no identifier"⟩
  else if r.deleted then .ok []
  else match r.metadata with
    | none => .error ⟨r.identifier, "record has no metadata"⟩
    | some m => .ok [⟨r.identifier, t.index, t.docType, source r m⟩]

end Transformer

end Harvesting
