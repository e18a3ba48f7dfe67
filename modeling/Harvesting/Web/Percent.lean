import Harvesting.Text.Utf8

/-!
# Percent-encoding

Bytes of a URL that do not stand for themselves are written `%XX` in upper-case hexadecimal.

* `Percent.encode` — the characters of a text that a class asks for, byte by byte;
* `Percent.decode` — the bytes of a text; a percent sign without two hexadecimal digits stands for
  itself;
* `Percent.isControl`, `isFragment`, `isPath`, `isUserinfo`, `isQuery` — the classes of the parts of
  a URL.
-/

namespace Harvesting.Percent

def hexDigit (n : Nat) : Char := Char.ofNat (if n < 10 then 48 + n else 55 + n)

def encodeByte (b : UInt8) : List Char := ['%', hexDigit (b.toNat / 16), hexDigit (b.toNat % 16)]

def encode (reserved : Char → Bool) (cs : List Char) : List Char :=
  cs.flatMap fun c => if reserved c then (Utf8.encodeChar c).flatMap encodeByte else [c]

/-- The value of a hexadecimal digit, in either case. -/
def hexValue? (b : UInt8) : Option Nat :=
  let n := b.toNat
  if 48 ≤ n ∧ n ≤ 57 then some (n - 48)
  else if 65 ≤ n ∧ n ≤ 70 then some (n - 55)
  else if 97 ≤ n ∧ n ≤ 102 then some (n - 87)
  else none

/-- The bytes that an encoded text stands for. -/
def decode : List UInt8 → List UInt8
  | [] => []
  | b :: x :: y :: r =>
    if b.toNat = 37 then
      match hexValue? x, hexValue? y with
      | some hi, some lo => UInt8.ofNat (16 * hi + lo) :: decode r
      | _, _ => b :: decode (x :: y :: r)
    else b :: decode (x :: y :: r)
  | b :: r => b :: decode r

def isControl (c : Char) : Bool := c.toNat < 32 || 126 < c.toNat

def isFragment (c : Char) : Bool := isControl c || " \"<>`".toList.contains c

def isPath (c : Char) : Bool := isFragment c || "#?\x7b\x7d".toList.contains c

/-- Encoded in a name or password. -/
def isUserinfo (c : Char) : Bool := isPath c || "/:;=@[\\]^|".toList.contains c

/-- Encoded in a query; `special` schemes also encode the apostrophe. -/
def isQuery (special : Bool) (c : Char) : Bool :=
  isControl c || " \"#<>".toList.contains c || (special && c = '\'')

end Harvesting.Percent
