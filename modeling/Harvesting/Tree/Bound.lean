import Harvesting.Text.Blank
import Harvesting.Time.Datestamp
import Harvesting.Tree.Decode

/-!
# Bounds

* `Tree.bound` — the bound of a window as documents and settings write it.
-/

namespace Harvesting.Tree

/-- A bound: a datestamp, or nothing for null and blank texts. -/
def bound (d : Dialect) (t : Tree) : Except Mismatch (Option Instant) := do
  match ← optional (string d "a string") t with
  | none => return none
  | some raw =>
    if Text.trim raw.toList = [] then return none
    match Datestamp.parse raw with
    | .ok t => return some t
    | .error f => .error (Mismatch.of d (.custom f.message))

end Harvesting.Tree
