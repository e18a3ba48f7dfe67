import Harvesting.Tree.Bound

/-!
# Checkpoints

How far the harvest of a source got: the window of the last page, the token that continues it, and
how the page ended.

* `Checkpoint`, `Checkpoint.isClean`;
* `Checkpoint.toDocument` — its stored document, absent parts left out;
* `Checkpoint.ofDocument` — the checkpoint of a document, or the mismatch.
-/

namespace Harvesting

/-- The progress after one page. -/
structure Checkpoint where
  /-- Continues the result set; none at its end. -/
  token : Option String
  /-- Lower bound of the window that the page belongs to. -/
  lower : Option Instant
  /-- Upper bound of the window that the page belongs to. -/
  upper : Option Instant
  /-- What went wrong; none if nothing did. -/
  error : Option String
  status : Int
  deriving Repr, DecidableEq

namespace Checkpoint

/-- The status of a page that was answered in full. -/
def okStatus : Int := 200

/-- The status of a request without a response. -/
def noResponse : Int := -1

/-- The page was answered, and nothing went wrong with it. -/
def isClean (c : Checkpoint) : Bool := c.status = okStatus && c.error.isNone

/-- A member that is left out when there is nothing to say. -/
def member {α : Type} (name : String) (f : α → Json) : Option α → List (String × Json)
  | some a => [(name, f a)]
  | none => []

/-- The part of the document about the page. -/
def toJson (c : Checkpoint) : Json :=
  Json.ofFields <|
    member "resumptionToken" Json.string c.token ++
    member "last_from" (fun t => .string (Datestamp.format t)) c.lower ++
    member "last_until" (fun t => .string (Datestamp.format t)) c.upper ++
    member "last_error" Json.string c.error ++
    [("last_http_status", .int c.status)]

def toDocument (c : Checkpoint) : Json := Json.ofFields [("oai", c.toJson)]

def text (t : Tree) : Except Tree.Mismatch (Option String) :=
  Tree.optional (Tree.string .document "a string") t

/-- The members of the part about the page. -/
def schema : Tree.Schema := [
  ("resumptionToken", Tree.check text),
  ("last_from", Tree.check (Tree.bound .document)),
  ("last_until", Tree.check (Tree.bound .document)),
  ("last_error", Tree.check text),
  ("last_http_status", Tree.check Tree.signed32)]

/-- The checkpoint of the part about the page. -/
def ofTree (t : Tree) : Except Tree.Mismatch Checkpoint := do
  let ms ← Tree.record .document "Checkpoint" schema 0 t
  return {
    token := ← ms.get "resumptionToken" none text
    lower := ← ms.get "last_from" none (Tree.bound .document)
    upper := ← ms.get "last_until" none (Tree.bound .document)
    error := ← ms.get "last_error" none text
    status := ← ms.get "last_http_status" noResponse Tree.signed32 }

def ofDocument (doc : Json) : Except Tree.Mismatch Checkpoint := do
  let ms ← Tree.record .document "CheckpointDocument" [("oai", Tree.check ofTree)] 1
    (Tree.ofJson none doc)
  match ms.tree? "oai" with
  | some t => ofTree t
  | none => .error (Tree.Mismatch.of .document (.missingField "oai"))

end Checkpoint

end Harvesting
