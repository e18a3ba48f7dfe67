/-!
# Keys

A source is known to the store of progress by its key. Keys become names of folders, so they consist
of letters, digits, points, underscores and hyphens, and do not start with a point.
-/

namespace Harvesting.Key

def isAlphanumeric (c : Char) : Bool :=
  ('0' ≤ c && c ≤ '9') || ('a' ≤ c && c ≤ 'z') || ('A' ≤ c && c ≤ 'Z')

def isKeyChar (c : Char) : Bool := isAlphanumeric c || c = '.' || c = '_' || c = '-'

/-- The text can be a key. -/
def isValid (key : String) : Bool :=
  let cs := key.toList
  cs ≠ [] && cs.head? ≠ some '.' && cs.all isKeyChar

/-- The key that a text suggests: other characters become hyphens, hyphens and points at the ends go. -/
def slug (raw : String) : String :=
  let isEdge (c : Char) : Bool := c = '-' || c = '.'
  let cs := raw.toList.map fun c => if isKeyChar c then c else '-'
  String.ofList ((cs.dropWhile isEdge).reverse.dropWhile isEdge).reverse

end Harvesting.Key
