import Harvesting.Text.Blank

/-!
# Faults of markup

* `isSpace` — the blanks of markup;
* `Fault` — what makes a marked-up text malformed, and its wording.
-/

namespace Harvesting.Markup

def isSpace (c : Char) : Bool := c = ' ' || c = '\t' || c = '\r' || c = '\n'

/-- The text without the blanks of markup at both ends. -/
def strip (cs : List Char) : List Char := ((cs.dropWhile isSpace).reverse.dropWhile isSpace).reverse

/-- Why a numeric character reference names no character. -/
inductive ReferenceFault where
  | sign
  | noDigits
  | notDigit
  | tooLarge
  | noCharacter (code : Nat)
  | null
  deriving Repr, DecidableEq

def ReferenceFault.message : ReferenceFault → String
  | .sign => "unexpected number sign"
  | .noDigits => "cannot parse integer from empty string"
  | .notDigit => "invalid digit found in string"
  | .tooLarge => "number too large to fit in target type"
  | .noCharacter code => "`" ++ toString code ++ "` is not a valid codepoint"
  | .null => "0x0 character is not permitted in XML"

/-- What makes a marked-up text malformed. -/
inductive Fault where
  | unknownMarkup
  | commentNotClosed
  | charactersNotClosed
  | doctypeNotClosed
  | instructionNotClosed
  | tagNotClosed
  | doctypeUnnamed
  /-- An end tag that closes another element than the innermost open one. -/
  | crossed (expected found : List Char)
  /-- An end tag while no element is open. -/
  | unopened (found : List Char)
  /-- An element whose content was asked for and that has no end. -/
  | endless (name : List Char)
  /-- An ampersand without a semicolon before the next one, in bytes. -/
  | ampersand (start stop : Nat)
  | entity (start stop : Nat) (name : List Char)
  | reference (fault : ReferenceFault)
  /-- The key of an attribute without a sign of equality, at a byte of the tag. -/
  | attributeKey (position : Nat)
  | attributeNotQuoted (position : Nat)
  | attributeValue (position : Nat)
  | attributeQuote (position : Nat) (quote : Char)
  deriving Repr, DecidableEq

namespace Fault

/-- Something that is not closed before the end. -/
def notClosed (what mark : String) : String :=
  "syntax error: " ++ what ++ " not closed: `" ++ mark ++ "` not found before end of input"

def message : Fault → String
  | unknownMarkup => "syntax error: unknown or missed symbol in markup"
  | commentNotClosed => notClosed "comment" "-->"
  | charactersNotClosed => notClosed "CDATA" "]]>"
  | doctypeNotClosed => notClosed "DOCTYPE" ">"
  | instructionNotClosed => notClosed "processing instruction or xml declaration" "?>"
  | tagNotClosed => notClosed "tag" ">"
  | doctypeUnnamed =>
    "ill-formed document: `<!DOCTYPE>` declaration does not contain a name of a document type"
  | crossed expected found =>
    "ill-formed document: expected `</" ++ String.ofList expected ++ ">`, but `</" ++
      String.ofList found ++ ">` was found"
  | unopened found =>
    "ill-formed document: close tag `</" ++ String.ofList found ++ ">` does not match any open tag"
  | endless name =>
    "ill-formed document: start tag not closed: `</" ++ String.ofList name ++
      ">` not found before end of input"
  | ampersand start stop =>
    "Error while escaping character at range " ++ toString start ++ ".." ++ toString stop ++
      ": Cannot find ';' after '&'"
  | entity start stop name =>
    "at " ++ toString start ++ ".." ++ toString stop ++ ": unrecognized entity `" ++
      String.ofList name ++ "`"
  | reference fault => "invalid character reference: " ++ fault.message
  | attributeKey p =>
    "position " ++ toString p ++ ": attribute key must be directly followed by `=` or space"
  | attributeNotQuoted p =>
    "position " ++ toString p ++ ": attribute value must be enclosed in `\"` or `'`"
  | attributeValue p => "position " ++ toString p ++ ": `=` must be followed by an attribute value"
  | attributeQuote p q =>
    "position " ++ toString p ++ ": missing closing quote `" ++ String.ofList [q] ++
      "` in attribute value"

end Fault

end Harvesting.Markup
