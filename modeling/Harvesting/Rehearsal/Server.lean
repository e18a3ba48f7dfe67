import Harvesting.Web.Exchange

/-!
# Scripted servers

A web server that answers with prepared replies.

* `Prepared` — a reply, and the calls that it is for;
* `Server`, `Server.answer` — the server and its replies.
-/

namespace Harvesting

/-- A prepared reply. -/
structure Prepared where
  reply : Reply
  /-- The reply is for calls whose first line has this in it. -/
  wanted : String
  /-- The reply may be given again. -/
  stays : Bool

/-- A server with prepared replies. -/
structure Server where
  host : String
  port : Nat
  replies : List Prepared
  /-- The calls so far, the last one first. -/
  calls : List Call

namespace Server

/-- The text has the other one in it. -/
def contains (part : List Char) : List Char → Bool
  | [] => part.isEmpty
  | c :: r => part.isPrefixOf (c :: r) || contains part r

/-- The status of a reply that was not prepared. -/
def unprepared : Reply := .answered ⟨599, [], []⟩

/-- The reply to a call, and the replies that are left. -/
def choose (line : String) : List Prepared → Reply × List Prepared
  | [] => (unprepared, [])
  | p :: r =>
    if contains p.wanted.toList line.toList then (p.reply, if p.stays then p :: r else r)
    else match choose line r with
      | (reply, left) => (reply, p :: left)

/-- The call arrives at this server. -/
def hears (s : Server) (a : Address) : Bool := a.hostText? = some s.host && a.port = some s.port

/-- The reply to a call that is made of the server at an address; elsewhere there is none. -/
def answerAt (s : Server) (at_ : Address) (c : Call) : Reply × Server :=
  if s.hears at_ then
    match choose c.line s.replies with
    | (reply, left) => (reply, { s with replies := left, calls := c :: s.calls })
  else (.dropped, s)

/-- The reply to a call that is made without a proxy. -/
def answer (s : Server) (c : Call) : Reply × Server := s.answerAt c.address c

end Server

end Harvesting
