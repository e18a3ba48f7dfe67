import Harvesting.Markup.Piece
import Harvesting.Markup.Tag

/-!
# Nesting

Every end tag closes the innermost open element.

* `nest` — the names of the open elements, innermost first, after one more piece. Elements that are
  still open at the end of a text are no fault.
-/

namespace Harvesting.Markup

/-- The names of the open elements after a piece. -/
def nest (opened : List (List Char)) : Piece → Except Fault (List (List Char))
  | .opening body => .ok (Tag.name body :: opened)
  | .closing body =>
    match opened with
    | [] => .error (.unopened (Tag.closedName body))
    | expected :: outer =>
      if Tag.closedName body = expected then .ok outer
      else .error (.crossed expected (Tag.closedName body))
  | .broken _ fault => .error fault
  | _ => .ok opened

end Harvesting.Markup
