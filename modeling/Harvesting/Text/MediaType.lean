/-!
# Media types

The kind of a body, as `text/xml; charset=utf-8` says it: two words, and parameters behind semicolons.

* `MediaType.isToken` — the characters of words;
* `MediaType.value?` — the value of a parameter, bare or in quotes, and what follows it;
* `MediaType.parameters?` — the parameters of a media type, if it is one.
-/

namespace Harvesting.Text.MediaType

def isToken (c : Char) : Bool := c.isAlphanum || "!#$%&'*+-.^_\x60|~".toList.contains c

def isQuotable (c : Char) : Bool := 31 < c.toNat && c.toNat ≠ 127

/-- What follows the value in quotes, if it is another parameter or nothing. -/
def afterQuote (cs : List Char) : Option (List Char) :=
  match cs.dropWhile (· = ' ') with
  | [] => some []
  | ';' :: r => some r
  | _ => none

/-- The value of a parameter and what follows its semicolon. A quote at once after the first one is
part of the value. -/
def value? (cs : List Char) : Option (String × List Char) :=
  match cs with
  | '"' :: c :: r =>
    let inside := r.takeWhile (· ≠ '"')
    match r.drop inside.length with
    | _ :: rest =>
      if (c :: inside).all isQuotable then
        (afterQuote rest).map fun rest => (String.ofList (c :: inside), rest)
      else none
    | [] => none
  | ['"'] => none
  | cs =>
    let word := cs.takeWhile isToken
    match cs.drop word.length with
    | [] => some (String.ofList word, [])
    | ';' :: rest => if word = [] then none else some (String.ofList word, rest)
    | _ => none

/-- The parameters behind a semicolon, at most so many; their names in lower case. -/
def list? : Nat → List Char → Option (List (String × String))
  | 0, _ => some []
  | fuel + 1, cs =>
    match cs.dropWhile (· = ' ') with
    | [] => some []
    | cs =>
      let name := cs.takeWhile isToken
      match name, cs.drop name.length with
      | _ :: _, '=' :: r => do
        let (value, rest) ← value? r
        return (String.ofList (name.map Char.toLower), value) :: (← list? fuel rest)
      | _, _ => none

/-- The parameters of a media type. -/
def parameters? (s : String) : Option (List (String × String)) :=
  let kind := s.toList.takeWhile isToken
  match kind, s.toList.drop kind.length with
  | _ :: _, '/' :: r =>
    let sort := r.takeWhile isToken
    match sort, r.drop sort.length with
    | _, [] => some []
    | _ :: _, ';' :: rest => list? rest.length rest
    | _, _ => none
  | _, _ => none

end Harvesting.Text.MediaType
