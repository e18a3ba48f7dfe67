import Harvesting.Text.Charset
import Harvesting.Text.Decimal
import Harvesting.Web.Address

/-!
# Exchanges

One call of a web server and what comes back.

* `Call` — what is sent; `Call.line` — its first line;
* `Response` — what a server answers; `Response.header?`, `Response.text` — its parts;
* `Reply` — an answer, or the ways in which there is none; `Reply.ofResponse` — the reply that an
  answer is.
-/

namespace Harvesting

/-- A call of a web server. -/
structure Call where
  method : String
  address : Address
  /-- The call goes through a proxy, which has to be told the whole address. -/
  proxied : Bool
  contentType : Option String
  body : Option String
  userAgent : Option String
  deriving Repr, DecidableEq

def Call.target (c : Call) : String :=
  if c.proxied then c.address.scheme ++ "://" ++ c.address.hostAndPort ++ c.address.target
  else c.address.target

def Call.line (c : Call) : String := c.method ++ " " ++ c.target

/-- The server speaks the protocol of the web. -/
def Address.isWeb (a : Address) : Bool := a.scheme = "http" || a.scheme = "https"

/-- What a server answers. -/
structure Response where
  status : Nat
  headers : List (String × String)
  body : List UInt8
  deriving Repr, DecidableEq, Inhabited

namespace Response

/-- The status is one of the 200s. -/
def isSuccess (r : Response) : Bool := 200 ≤ r.status && r.status < 300

/-- An answer of this status has no body, whatever follows it. -/
def isBare (r : Response) : Bool := r.status = 101 || r.status = 204 || r.status = 304

/-- More is to come before the answer proper. -/
def isInterim (r : Response) : Bool := 100 ≤ r.status && r.status < 200 && r.status ≠ 101

/-- The value of a header, of several the first one. Letter case does not matter. -/
def header? (r : Response) (name : String) : Option String :=
  (r.headers.find? fun h => h.1.map Char.toLower = name).map (·.2)

def text (r : Response) : List Char :=
  (Text.Charset.ofContentType (r.header? "content-type")).decode r.body

end Response

/-- What comes back from a call. -/
inductive Reply where
  | answered (r : Response)
  /-- The connection closed without an answer. -/
  | dropped
  /-- No answer in time. -/
  | silent
  /-- An answer of which the body breaks off. -/
  | truncated (r : Response)
  deriving Repr, DecidableEq, Inhabited

/-- The reply that an answer is, whole or broken off, when nothing comes after it. -/
def Reply.ofResponse (whole : Bool) (r : Response) : Reply :=
  if r.isInterim then .dropped
  else if r.isBare then .answered { r with body := [] }
  else if whole then .answered r
  else .truncated r

end Harvesting
