/-!
# Environments

* `Environment` — named texts from outside; `Environment.get?` — the text of a name.
-/

namespace Harvesting

/-- Named texts from outside, in the order in which they were set. -/
structure Environment where
  entries : List (String × String)
  deriving Repr, DecidableEq

namespace Environment

def get? (e : Environment) (name : String) : Option String := e.entries.lookup name

/-- The variables of both; those of the first one count. -/
def orElse (a b : Environment) : Environment :=
  ⟨a.entries ++ b.entries.filter fun (k, _) => (a.get? k).isNone⟩

end Environment

end Harvesting
