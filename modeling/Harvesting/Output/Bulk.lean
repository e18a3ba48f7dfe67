import Harvesting.Json.Outline
import Harvesting.Json.Printer
import Harvesting.Output.Sink
import Harvesting.Web.Exchange

/-!
# Bulk requests

Many documents in one request: for each document a line that says where it goes and a line that holds
it, each line one JSON value.

* `Bulk.encode` — the body for a batch of documents;
* `Bulk.call` — the call that sends it;
* `Bulk.Answer`, `Bulk.Answer.read?` — what the index says of every document;
* `Bulk.verdict` — whether a reply means that the whole batch was taken.
-/

namespace Harvesting.Bulk

def lines (d : Document) : List Json :=
  let place := ("_index", Json.string d.index) :: ("_id", .string d.id) ::
    (d.docType.map fun t => ("_type", Json.string t)).toList
  [Json.ofFields [("index", Json.ofFields place)], d.source]

def encode (batch : List Document) : List Char :=
  (batch.flatMap lines).flatMap fun v => v.compactChars ++ ['\n']

/-- How the body names what it is. -/
def contentType : String := "application/x-ndjson"

def call (endpoint : Address) (batch : List Document) : Call :=
  ⟨"POST", endpoint, false, some contentType, some (String.ofList (encode batch)), none⟩

/-! ### Answers -/

/-- What the index says of one document. -/
structure Item where
  status : Nat
  error : Option Json

/-- What the index says of a batch. -/
structure Answer where
  /-- Some document was not taken. -/
  errors : Bool
  /-- One item or more for each document, under the names of what was done. -/
  items : List (List (String × Item))

def orDefault {α : Type} (d : α) (reader : Json.Outline → Option α) : Option Json.Outline → Option α
  | none => some d
  | some o => reader o

def flag? (o : Json.Outline) : Option Bool := do (← o.value? 0).asBool?

def status? (o : Json.Outline) : Option Nat := do
  match ← o.value? 0 with
  | .int n => if 0 ≤ n ∧ n < 65536 then some n.toNat else none
  | _ => none

/-- How deep the fault of an item may be nested: it stands in four lists and objects. -/
def faultRoom : Nat := Json.maxDepth - 4

/-- The fault that an item tells, in the order of its names; `null` is none. -/
def fault? (o : Json.Outline) : Option (Option Json) := do
  match ← o.value? faultRoom with
  | .null => some none
  | v => some (some v.ordered)

/-- What is said of one document. -/
def Item.ofOutline? (o : Json.Outline) : Option Item := do
  match ← o.members? ["status", "error"] with
  | [status, error] => return ⟨← orDefault 0 status? status, ← orDefault none fault? error⟩
  | _ => none

/-- Named items; of two of one name the last counts. -/
def items? (o : Json.Outline) : Option (List (String × Item)) := do
  let read ← (← o.named?).mapM fun m => return (m.1, ← Item.ofOutline? m.2)
  return read.foldl (fun kept m => kept.filter (·.1 ≠ m.1) ++ [m]) []

/-- The answer that a body holds. Only what it names is read, the rest is skipped. -/
def Answer.read? (body : List UInt8) : Option Answer := do
  match ← (← Json.outline? body).members? ["errors", "items"] with
  | [errors, items] =>
    return ⟨← orDefault false flag? errors, ← orDefault [] (fun o => do (← o.items?).mapM items?) items⟩
  | _ => none

/-- The items of documents that were not taken. -/
def Answer.failures (a : Answer) : List Item :=
  (a.items.flatMap fun named => named.map (·.2)).filter fun i => 300 ≤ i.status || i.error.isSome

/-- Why a document was not taken. -/
def Item.reason (i : Item) : String :=
  match i.error with
  | some e => e.compact
  | none => "status " ++ toString i.status

/-- Whether the whole batch was taken, as far as the answer says. -/
def Answer.verdict (a : Answer) (total : Nat) : Except SinkFault Unit :=
  if a.errors then
    match a.failures with
    | [] => .ok ()
    | first :: r => .error (.rejected (r.length + 1) total first.reason)
  else .ok ()

/-- The most bytes of a body that a fault keeps. -/
def maxBody : Nat := 512

/-- The call could not be made or broke off. -/
def broken (problem : String) (endpoint : Address) : SinkFault :=
  .transport (problem ++ " for url (" ++ endpoint.anonymous.text ++ ")")

/-- Whether a reply means that the whole batch was taken. -/
def verdict (endpoint : Address) (timeout : Span) (total : Nat) : Reply → Except SinkFault Unit
  | .dropped => .error (broken "error sending request" endpoint)
  | .silent => .error (.timeout timeout)
  | .truncated r =>
    if r.isSuccess then .error (.transport "error decoding response body")
    else .error (.status r.status "")
  | .answered r =>
    if r.isSuccess then
      match Answer.read? r.body with
      | some a => a.verdict total
      | none => .error (.transport "error decoding response body")
    else .error (.status r.status (String.ofList (Utf8.cut maxBody r.text)))

end Harvesting.Bulk
