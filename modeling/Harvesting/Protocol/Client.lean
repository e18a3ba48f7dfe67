import Harvesting.Protocol.Envelope
import Harvesting.Protocol.RetryAfter
import Harvesting.Settings.Source
import Harvesting.Web.Exchange

/-!
# Clients

Asking a repository over HTTP.

* `Client.of` — the client of a source, with its timeout and its proxy;
* `Client.call` — the call for a request;
* `Client.page` — what a reply means.
-/

namespace Harvesting

/-- What a source needs to ask its repository. -/
structure Client where
  timeout : Span
  proxy : Option Address
  deriving Repr, DecidableEq

/-- The address of a request: the arguments follow what the repository's address asks for already. -/
def Request.address (r : Request) : Except SourceFault Address :=
  match Address.parse r.url with
  | .ok a => .ok (a.withPairs r.queryPairs)
  | .error f => .error (.invalidRequest (r.url ++ ": " ++ f.message))

namespace Client

def userAgent : String := "oai-harvest/0.1.0"

def of (s : SourceSettings) : Except SourceFault Client :=
  match s.proxyUrl? with
  | none => .ok ⟨s.timeout, none⟩
  | some url =>
    match Address.parse url with
    | .ok a => .ok ⟨s.timeout, some a⟩
    | .error _ => .error (.invalidRequest ("proxy " ++ url ++ ": builder error"))

def call (c : Client) (r : Request) : Except SourceFault Call := do
  let a ← r.address
  if ¬ a.isWeb then throw (.invalidRequest ("builder error for url (" ++ a.anonymous.text ++ ")"))
  return ⟨"GET", a, c.proxy.isSome, none, none, some userAgent⟩

/-- The server that is called: the repository's, or the proxy. -/
def server (c : Client) (call : Call) : Address := c.proxy.getD call.address

/-- How long a response asks us to wait. -/
def retryAfter (now : Instant) (r : Response) : Option Span := do
  (← RetryAfter.read? (← r.header? "retry-after")).wait? now

/-- What a reply means. Only bodies of successful responses are read. -/
def page (c : Client) (call : Call) (now : Instant) : Reply → Except SourceFault Page
  | .answered r =>
    .ok (if r.isSuccess then .ofBody r.status (retryAfter now r) r.text
      else .ofStatus r.status (retryAfter now r))
  | .truncated r =>
    if r.isSuccess then .error (.transport "error decoding response body")
    else .ok (.ofStatus r.status (retryAfter now r))
  | .dropped => .error (.transport ("error sending request for url (" ++ call.address.anonymous.text ++ ")"))
  | .silent => .error (.timeout c.timeout)

end Client

end Harvesting
