import Harvesting.Time.Datestamp

/-!
# Requests

What one ListRecords request asks of a repository.

* `Window` — the bounds of a harvest, each open or closed;
* `Request` — the parameters; `Request.continueWith` — the request for the next page;
* `Request.queryPairs` — the arguments of the protocol: a token stands alone;
* `Request.text` — a line for people.
-/

namespace Harvesting

/-- The bounds of a harvest; an absent bound is open. -/
structure Window where
  lower : Option Instant
  upper : Option Instant
  deriving Repr, DecidableEq

/-- Both bounds, `*` standing for an open one. -/
def Window.text (w : Window) : String :=
  "[" ++ Datestamp.boundText "*" w.lower ++ ", " ++ Datestamp.boundText "*" w.upper ++ "]"

/-- The parameters of one ListRecords request. -/
structure Request where
  url : String
  set : Option String
  metadataPrefix : String
  window : Window
  token : Option String
  deriving Repr, DecidableEq

namespace Request

def continueWith (r : Request) (token : String) : Request := { r with token := some token }

/-- The arguments in the order in which they are sent. A token excludes all others. -/
def queryPairs (r : Request) : List (String × String) :=
  ("verb", "ListRecords") ::
    match r.token with
    | some token => [("resumptionToken", token)]
    | none =>
      ("metadataPrefix", r.metadataPrefix) ::
        ((r.set.map (("set", ·))).toList ++
          (r.window.lower.map fun t => ("from", Datestamp.format t)).toList ++
          (r.window.upper.map fun t => ("until", Datestamp.format t)).toList)

def text (r : Request) : String :=
  match r.token with
  | some token => r.url ++ " resumptionToken=" ++ token
  | none =>
    r.url ++ " set=" ++ r.set.getD "*" ++ " metadataPrefix=" ++ r.metadataPrefix ++
      " window=" ++ r.window.text

end Request

end Harvesting
