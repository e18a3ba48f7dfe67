import Harvesting.Command.Deployment
import Harvesting.Rehearsal.Server
import Harvesting.Store.Backend

/-!
# Rehearsals against a server

Sources run to their ends one after another against a scripted web server, which stands for their
repositories and for the index. Nothing lasts any time but pauses.

* `Site` — the server, the store and the clock;
* `Site.answer` — the answer to an effect;
* `Site.run` — the sums of all sources.
-/

namespace Harvesting

/-- What the sources share. -/
structure Site where
  server : Server
  store : Backend
  now : Instant
  cancelled : Bool

namespace Site

def consult {α : Type} (s : Site) (f : Backend → Store.Answer Backend α) :
    Except Store.Fault α × Site :=
  match f s.store with
  | (a, store) => (a, { s with store := store })

def fetch (c : Client) (s : Site) (r : Request) : Except SourceFault Page × Site :=
  match c.call r with
  | .error e => (.error e, s)
  | .ok call =>
    match s.server.answerAt (c.server call) call with
    | (reply, server) => (c.page call s.now reply, { s with server := server })

/-- The answer to an effect, with the site and the sink after it. -/
def answer (c : Client) (s : Site × Outlet) : (e : Effect) → e.Reply × (Site × Outlet)
  | .cancelled => (s.1.cancelled, s)
  | .pause length =>
    if s.1.cancelled then (false, s)
    else (true, { s.1 with now := (s.1.now.after? length).getD s.1.now }, s.2)
  | .clock => (s.1.now, s)
  | .wallClock => (s.1.now, s)
  | .load key =>
    match s.1.consult fun b => Store.load b key with
    | (a, site) => (a, site, s.2)
  | .save key cp =>
    match s.1.consult fun b => Store.save b key cp with
    | (a, site) => (a, site, s.2)
  | .loadTally key =>
    match s.1.consult fun b => Store.loadTally b key with
    | (a, site) => (a, site, s.2)
  | .saveTally key t =>
    match s.1.consult fun b => Store.saveTally b key t with
    | (a, site) => (a, site, s.2)
  | .request r _ =>
    match s.1.fetch c r with
    | (a, site) => (a, site, s.2)
  | .index d =>
    match s.2.index Server.answer s.1.server d with
    | (a, outlet, server) => (a, { s.1 with server := server }, outlet)
  | .flush =>
    match s.2.flush Server.answer s.1.server with
    | (a, outlet, server) => (a, { s.1 with server := server }, outlet)
  | .close =>
    match s.2.close Server.answer s.1.server with
    | (a, outlet, server) => (a, { s.1 with server := server }, outlet)

/-- The most stages of a source. -/
def stageLimit : Nat := 1000000

/-- The sums of the sources that came to their ends. -/
def run (s : Site) : List Deployment → List Summary × Site
  | [] => ([], s)
  | d :: ds =>
    let course := Runner.course d.runner
    match course.follow (answer d.client) stageLimit (Runner.start d.runner) (s, d.outlet) with
    | ((.stopped, sum), s, _) =>
      match run s ds with
      | (sums, s) => (sum :: sums, s)
    | (_, s, _) => run s ds

end Site

end Harvesting
