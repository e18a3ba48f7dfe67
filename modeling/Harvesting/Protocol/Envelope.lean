import Harvesting.Markup.Nesting
import Harvesting.Protocol.Page
import Harvesting.Text.Blank

/-!
# Envelopes

A ListRecords response is a marked-up text. Only what a harvest needs is read from it: the headers of
the records, their metadata as it was sent, the token and an error. Elements are known by their local
names, wherever they stand.

* `Element` — the elements that count;
* `Reading` — how far a text has been read; `Reading.step` reads one more piece;
* `Envelope.read` — the whole text.

The metadata of a record is the source between its start tag and the end tag that closes it, without
blanks at the ends.
-/

namespace Harvesting

open Markup Text

/-- What a response holds. -/
structure Envelope where
  records : List Record
  token : Option String
  error : Option ProtocolError
  deriving Repr, DecidableEq

namespace Envelope

/-- Elements of which the character data is a value. -/
inductive Field where
  | identifier
  | datestamp
  | setSpec
  | token
  | error
  deriving Repr, DecidableEq

/-- The elements that count. -/
inductive Element where
  | record
  | header
  | metadata
  | field (f : Field)
  | other
  deriving Repr, DecidableEq

def Element.ofName (name : List Char) : Element :=
  match String.ofList (Tag.localName name) with
  | "record" => .record
  | "header" => .header
  | "metadata" => .metadata
  | "identifier" => .field .identifier
  | "datestamp" => .field .datestamp
  | "setSpec" => .field .setSpec
  | "resumptionToken" => .field .token
  | "error" => .field .error
  | _ => .other

def Element.ofTag (body : List Char) : Element := .ofName (Tag.name body)

/-- Why a text is no response: the fault, and how many bytes had been read when it is one of the text
around the records. -/
structure Fault where
  position : Option Nat
  cause : Markup.Fault
  deriving Repr, DecidableEq

def Fault.message (f : Fault) : String :=
  match f.position with
  | some n => "at byte " ++ toString n ++ ": " ++ f.cause.message
  | none => f.cause.message

/-- Metadata that is being read: its element, the elements around it, and the source so far. -/
structure Payload where
  name : List Char
  outer : Nat
  source : List Char
  deriving Repr, DecidableEq

/-- How far a text has been read. -/
structure Reading where
  envelope : Envelope
  record : Option Record
  inHeader : Bool
  field : Option Field
  payload : Option Payload
  opened : List (List Char)
  /-- How many bytes have been read. -/
  offset : Nat
  deriving Repr, DecidableEq

namespace Reading

def start : Reading := ⟨⟨[], none, none⟩, none, false, none, none, [], 0⟩

/-- The code of an error without a code. -/
def unknownCode : String := "unknown"

/-- The attribute that says that a record was deleted, and its value. -/
def deletedStatus : String × String := ("status", "deleted")

def assign (s : Reading) (f : Field) (value : String) : Reading :=
  let inRecord (set : Record → Record) : Reading := { s with record := s.record.map set }
  match f with
  | .identifier => inRecord fun r => { r with identifier := value }
  | .datestamp => inRecord fun r => { r with datestamp := some value }
  | .setSpec => inRecord fun r => { r with sets := r.sets ++ [value] }
  | .token =>
    { s with envelope := { s.envelope with token := if value = "" then none else some value } }
  | .error =>
    { s with envelope := { s.envelope with
        error := s.envelope.error.map fun e => { e with message := value } } }

/-- Character data: the value of the open field, if one is open. -/
def characters (s : Reading) (cs : List Char) : Reading :=
  match s.field with
  | some f => s.assign f (String.ofList (trim cs))
  | none => s

/-- Character data with entities. Blanks alone are no data. -/
def text (s : Reading) (cs : List Char) : Except Markup.Fault Reading :=
  if s.field.isNone ∨ strip cs = [] then .ok s
  else return s.characters (← unescape (strip cs))

/-- The header of a record: a deleted record says so in it. -/
def header (s : Reading) (body : List Char) : Except Markup.Fault Reading := do
  let status ← Tag.attribute? deletedStatus.1 body
  if status = some deletedStatus.2.toList then
    return { s with record := s.record.map fun r => { r with deleted := true } }
  else return s

/-- An error of the protocol, of which the message follows. -/
def error (s : Reading) (body : List Char) : Except Markup.Fault Reading := do
  let code ← Tag.attribute? "code" body
  return { s with envelope := { s.envelope with
    error := some ⟨(code.map String.ofList).getD unknownCode, ""⟩ } }

def openTag (s : Reading) (body : List Char) : Except Markup.Fault Reading :=
  match Element.ofTag body with
  | .record => .ok { s with record := some .empty }
  | .header => if s.record.isSome then { s with inHeader := true }.header body else .ok s
  | .metadata =>
    if s.record.isSome then .ok { s with payload := some ⟨Tag.name body, s.opened.length, []⟩ }
    else .ok s
  | .field .token => .ok { s with field := some .token }
  | .field .error => return { ← s.error body with field := some .error }
  | .field f => .ok (if s.inHeader then { s with field := some f } else s)
  | .other => .ok s

def emptyTag (s : Reading) (body : List Char) : Except Markup.Fault Reading :=
  match Element.ofTag body with
  | .header => if s.record.isSome then s.header body else .ok s
  | .field .error => s.error body
  | _ => .ok s

/-- An end tag: it ends the open field, and with its record or header the reading of them. -/
def closeTag (s : Reading) (body : List Char) : Reading :=
  let s := { s with field := none }
  match Element.ofName (Tag.closedName body) with
  | .header => { s with inHeader := false }
  | .record =>
    { s with
      envelope := { s.envelope with records := s.envelope.records ++ s.record.toList }
      record := none }
  | _ => s

/-- A piece of the text around the metadata. -/
def outside (s : Reading) : Piece → Except Markup.Fault Reading
  | .text cs => s.text cs
  | .characters cs => .ok (s.characters cs)
  | .opening body => s.openTag body
  | .single body => s.emptyTag body
  | .closing body => .ok (s.closeTag body)
  | _ => .ok s

/-- A piece inside the metadata, after which the elements `opened` are open. -/
def inside (s : Reading) (p : Payload) (opened : List (List Char)) (piece : Piece) : Reading :=
  if opened.length = p.outer then
    { s with
      record := s.record.map fun r => { r with metadata := some (String.ofList (trim p.source)) }
      payload := none }
  else { s with payload := some { p with source := p.source ++ piece.source } }

def step (s : Reading) (piece : Piece) : Except Envelope.Fault Reading := do
  let offset := s.offset + Utf8.length piece.source
  let located (f : Markup.Fault) : Envelope.Fault := ⟨if s.payload.isSome then none else some offset, f⟩
  let opened ← (nest s.opened piece).mapError located
  let next ← match s.payload with
    | some p => pure (s.inside p opened piece)
    | none => (s.outside piece).mapError (Fault.mk none)
  return { next with opened, offset }

/-- What was read, at the end of the text. -/
def finish (s : Reading) : Except Envelope.Fault Envelope :=
  match s.payload with
  | some p => .error ⟨none, .endless p.name⟩
  | none => .ok s.envelope

end Reading

/-- A byte order mark before the text does not count. -/
def withoutMark : List Char → List Char
  | '\uFEFF' :: r => r
  | cs => cs

def read (body : List Char) : Except Envelope.Fault Envelope := do
  (← (pieces (withoutMark body)).foldlM Reading.step .start).finish

end Envelope

/-- The code of the error that stands for a response that cannot be read. -/
def malformedResponse : String := "malformedResponse"

/-- The page of a response with a status of the 200s. -/
def Page.ofBody (status : Nat) (retryAfter : Option Span) (body : List Char) : Page :=
  match Envelope.read body with
  | .ok e => ⟨status, e.records, e.token, e.error, retryAfter⟩
  | .error f =>
    { Page.ofStatus status retryAfter with error := some ⟨malformedResponse, f.message⟩ }

end Harvesting
