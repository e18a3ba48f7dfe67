import Harvesting.Time.Span

/-!
# Pages

What a repository answers to a request.

* `Record` — the header and the raw metadata of one record;
* `ProtocolError` — an error of the protocol, with its code;
* `Page` — one response; `SourceFault` — why there is none;
* `Outcome`, `Page.outcome` — what the harvest makes of it: a page to keep, a wish to be asked later,
  or a failure.
-/

namespace Harvesting

/-- One record of a repository. -/
structure Record where
  identifier : String
  datestamp : Option String
  sets : List String
  deleted : Bool
  /-- The content of the metadata element as it was sent. -/
  metadata : Option String
  deriving Repr, DecidableEq

/-- A record of which nothing is known yet. -/
def Record.empty : Record := ⟨"", none, [], false, none⟩

/-- An error of the protocol. -/
structure ProtocolError where
  code : String
  message : String
  deriving Repr, DecidableEq

/-- The code, and the message if there is one. -/
def ProtocolError.text (e : ProtocolError) : String :=
  if e.message = "" then e.code else e.code ++ ": " ++ e.message

/-- One response. -/
structure Page where
  status : Nat
  records : List Record
  token : Option String
  error : Option ProtocolError
  /-- How long the repository asks us to wait. -/
  retryAfter : Option Span
  deriving Repr, DecidableEq

/-- A response of which only the status counts. -/
def Page.ofStatus (status : Nat) (retryAfter : Option Span) : Page := ⟨status, [], none, none, retryAfter⟩

/-- Why there is no response. -/
inductive SourceFault where
  | timeout (after : Span)
  | transport (reason : String)
  | invalidRequest (reason : String)
  deriving Repr, DecidableEq

def SourceFault.message : SourceFault → String
  | .timeout s => "request timed out after " ++ s.text
  | .transport r => "transport error: " ++ r
  | .invalidRequest r => "invalid request: " ++ r

/-- What the harvest makes of a response. -/
inductive Outcome where
  /-- The records count, and so does the token. -/
  | success
  /-- To be asked again after a while. -/
  | throttled (wait : Span)
  | failed (status : Int) (error : String)
  deriving Repr, DecidableEq

namespace Outcome

def isSuccess : Outcome → Bool
  | .success => true
  | _ => false

/-- The code of the error that says that the window holds no records. -/
def noRecordsMatch : String := "noRecordsMatch"

/-- The status of a request without a response. -/
def noResponse : Int := -1

/-- The statuses with which a repository may ask us to wait. -/
def throttleStatuses : List Nat := [429, 503]

/--
A response with a status of the 200s is a success unless it reports an error other than an empty
window. Of the other statuses, those that throttle with a time to wait are throttled.
-/
def ofPage (p : Page) : Outcome :=
  if 200 ≤ p.status ∧ p.status < 300 then
    match p.error with
    | some e => if e.code = noRecordsMatch then .success else .failed p.status e.text
    | none => .success
  else
    match p.retryAfter with
    | some wait =>
      if p.status ∈ throttleStatuses then .throttled wait
      else .failed p.status ("HTTP status " ++ toString p.status)
    | none => .failed p.status ("HTTP status " ++ toString p.status)

/-- The outcome of a request with or without a response. -/
def of : Except SourceFault Page → Outcome
  | .ok p => ofPage p
  | .error e => .failed noResponse e.message

end Outcome

end Harvesting
