import Harvesting.Web.Percent

/-!
# Forms

Names and values in the query of a URL, `name=value` joined by `&`.

* `Form.encode` — one name or value: letters, digits and `*-._` stand for themselves, a space is a
  plus sign, all other bytes are percent-encoded;
* `Form.append` — pairs added to a query that may be there already;
* `Form.decode` — the pairs of a query.
-/

namespace Harvesting.Form

def isPlain (b : UInt8) : Bool :=
  let n := b.toNat
  (48 ≤ n && n ≤ 57) || (65 ≤ n && n ≤ 90) || (97 ≤ n && n ≤ 122) ||
    n = 42 || n = 45 || n = 46 || n = 95

/-- One byte of a name or value. -/
def encodeByte (b : UInt8) : List Char :=
  if isPlain b then [Char.ofNat b.toNat]
  else if b.toNat = 32 then ['+']
  else Percent.encodeByte b

def encode (cs : List Char) : List Char := (Utf8.encode cs).flatMap encodeByte

def encodePair (p : String × String) : List Char :=
  encode p.1.toList ++ '=' :: encode p.2.toList

/-- The query with more pairs; an ampersand follows whatever was there. -/
def append (query : List Char) : List (String × String) → List Char
  | [] => query
  | p :: r => append ((if query = [] then [] else query ++ ['&']) ++ encodePair p) r

/-- A plus sign is a space. -/
def unplus (cs : List Char) : List Char := cs.map fun c => if c = '+' then ' ' else c

/-- The text that an encoded name or value stands for. -/
def decodeText (cs : List Char) : String :=
  String.ofList (Utf8.decodeLossy (Percent.decode (Utf8.encode (unplus cs))))

def parts : List Char → List (List Char)
  | [] => [[]]
  | c :: r =>
    if c = '&' then [] :: parts r
    else match parts r with
      | p :: ps => (c :: p) :: ps
      | [] => [[c]]

/-- A name up to the first equals sign, and the value after it. -/
def decodePair (cs : List Char) : String × String :=
  (decodeText (cs.takeWhile (· ≠ '=')), decodeText ((cs.dropWhile (· ≠ '=')).drop 1))

/-- The pairs of a query; empty parts count for nothing. -/
def decode (query : List Char) : List (String × String) :=
  ((parts query).filter (· ≠ [])).map decodePair

end Harvesting.Form
