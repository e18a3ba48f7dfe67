/-!
# Colours on a terminal

* `Paint.Style` — a colour, plain or bold;
* `Paint.apply` — a text between the sequences that turn a style on and all styles off.
-/

namespace Harvesting.Paint

/-- The colours in use. -/
inductive Colour where
  | red
  | green
  | yellow
  | cyan
  deriving Repr, DecidableEq

/-- The number by which terminals know a colour. -/
def Colour.code : Colour → String
  | red => "31"
  | green => "32"
  | yellow => "33"
  | cyan => "36"

/-- A colour, plain or bold. -/
structure Style where
  colour : Colour
  bold : Bool

/-- The sequence that turns a style on. -/
def Style.start (s : Style) : String :=
  "\x1b[" ++ (if s.bold then "1;" else "") ++ s.colour.code ++ "m"

/-- The sequence that turns all styles off. -/
def stop : String := "\x1b[0m"

/-- The text with the style turned on again wherever it is turned off. -/
def kept (start : List Char) : List Char → List Char
  | [] => []
  | c :: r =>
    if stop.toList.isPrefixOf (c :: r) then
      stop.toList ++ start ++ kept start (r.drop (stop.length - 1))
    else c :: kept start r
termination_by cs => cs.length
decreasing_by all_goals (simp only [List.length_cons, List.length_drop]; omega)

/-- The text in a style; without colours it stays as it is. -/
def apply (colours : Bool) (s : Style) (text : String) : String :=
  if colours then s.start ++ String.ofList (kept s.start.toList text.toList) ++ stop else text

end Harvesting.Paint
