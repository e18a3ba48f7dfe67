import Harvesting.Text.Decimal
import Harvesting.Web.NameForm
import Harvesting.Web.Percent

/-!
# Hosts

The host of a URL as the URL standard reads it.

* `Host` — a name, an IPv4 or IPv6 address, or an opaque text; `Host.text`;
* `AddressFault` — why a URL cannot be read, with its wording;
* `Host.parse` — the host of a URL whose scheme is known to the standard: percent-encoding is undone,
  names become lower-case ASCII, names that end in a number are IPv4 addresses;
* `Host.parseOpaque` — the host of any other URL.
-/

namespace Harvesting

/-- Why a URL cannot be read. -/
inductive AddressFault where
  | emptyHost
  | domainName
  | port
  | ipv4
  | ipv6
  | domainCharacter
  | relative
  deriving Repr, DecidableEq

def AddressFault.message : AddressFault → String
  | .emptyHost => "empty host"
  | .domainName => "invalid international domain name"
  | .port => "invalid port number"
  | .ipv4 => "invalid IPv4 address"
  | .ipv6 => "invalid IPv6 address"
  | .domainCharacter => "invalid domain character"
  | .relative => "relative URL without a base"

/-- The host of a URL. -/
inductive Host where
  | name (s : String)
  | ipv4 (n : Nat)
  /-- Eight pieces of 16 bits. -/
  | ipv6 (pieces : List Nat)
  deriving Repr, DecidableEq

namespace Host

/-! ### IPv4 -/

def maxIpv4 : Nat := 4294967295

/-- A number in base 8, 10 or 16 as its first characters say; `none` if it is no number. -/
def ipv4Number? (cs : List Char) : Option Nat :=
  let value (base : Nat) (ds : List Char) (ok : Char → Bool) : Option Nat :=
    if ds.all ok then
      some (ds.foldl (fun n c =>
        base * n + ((Percent.hexValue? (UInt8.ofNat c.toNat)).getD 0)) 0)
    else none
  let isOctal (c : Char) : Bool := '0' ≤ c && c ≤ '7'
  let isHex (c : Char) : Bool := c.toNat < 128 && (Percent.hexValue? (UInt8.ofNat c.toNat)).isSome
  match cs with
  | [] => none
  | '0' :: 'x' :: r => value 16 r isHex
  | '0' :: 'X' :: r => value 16 r isHex
  | '0' :: c :: r => value 8 (c :: r) isOctal
  | r => value 10 r Char.isDigit

def labels (cs : List Char) : List (List Char) :=
  cs.foldr (fun c acc => match acc with
    | p :: ps => if c = '.' then [] :: p :: ps else (c :: p) :: ps
    | [] => [[c]]) [[]]

/-- The last label of a name, not counting an empty one at the end. -/
def lastLabel? (cs : List Char) : Option (List Char) :=
  match (labels cs).reverse with
  | [] :: p :: _ => some p
  | [] :: [] => none
  | p :: _ => some p
  | [] => none

def endsInNumber (cs : List Char) : Bool :=
  match lastLabel? cs with
  | none => false
  | some p => (p ≠ [] && p.all Char.isDigit) || (ipv4Number? p).isSome

/-- The address of a name that ends in a number. -/
def parseIpv4 (cs : List Char) : Except AddressFault Nat :=
  let ps := labels cs
  let ps := if ps.getLast? = some [] then ps.dropLast else ps
  if 4 < ps.length then .error .ipv4
  else match (ps.map ipv4Number?).reverse with
    | some last :: before =>
      if before.all Option.isSome then
        let numbers := before.reverse.map (·.getD 0)
        if maxIpv4 / Nat.pow 256 numbers.length < last ∨ numbers.any (255 < ·) ∨ maxIpv4 < last then
          .error .ipv4
        else
          let high := numbers.zipIdx.foldl (fun acc (n, i) => acc + n * Nat.pow 256 (3 - i)) 0
          .ok (high + last)
      else .error .ipv4
    | _ => .error .ipv4

/-! ### IPv6 -/

/-- The hexadecimal number of up to four digits at the start of a text, and the rest. -/
def hexPiece (cs : List Char) : Nat × Nat × List Char :=
  let isHex (c : Char) : Bool := c.toNat < 128 && (Percent.hexValue? (UInt8.ofNat c.toNat)).isSome
  let ds := (cs.take 4).takeWhile isHex
  (ds.foldl (fun n c => 16 * n + (Percent.hexValue? (UInt8.ofNat c.toNat)).getD 0) 0, ds.length,
    cs.drop ds.length)

/-- An IPv4 address at the end of an IPv6 address, as two pieces. -/
def embedded? (cs : List Char) : Option (List Nat) :=
  let ps := labels cs
  let ok (p : List Char) : Bool :=
    p ≠ [] && p.all Char.isDigit && (p.length = 1 || p.head? ≠ some '0') &&
      Text.Decimal.numeral p ≤ 255
  if ps.length = 4 ∧ ps.all ok then
    match ps.map Text.Decimal.numeral with
    | [a, b, c, d] => some [256 * a + b, 256 * c + d]
    | _ => none
  else none

/-- Pieces read so far, and where the gap of zeros is. -/
structure Pieces where
  read : List Nat
  gap : Option Nat

/-- The pieces of an address after the first character rule. -/
def ipv6Pieces : Nat → Pieces → List Char → Option Pieces
  | _, s, [] => some s
  | 0, _, _ => none
  | fuel + 1, s, cs =>
    if s.read.length = 8 then none
    else match cs with
      | ':' :: r =>
        if s.gap.isSome then none
        else ipv6Pieces fuel { s with gap := some s.read.length } r
      | _ =>
        let (n, k, rest) := hexPiece cs
        match rest with
        | '.' :: _ =>
          if k = 0 ∨ 6 < s.read.length then none
          else (embedded? cs).map fun two => { s with read := s.read ++ two }
        | ':' :: [] => none
        | ':' :: r => ipv6Pieces fuel { s with read := s.read ++ [n] } r
        | [] => some { s with read := s.read ++ [n] }
        | _ => none

/-- The eight pieces of an address. -/
def parseIpv6 (cs : List Char) : Except AddressFault (List Nat) :=
  let start : Option (Pieces × List Char) := match cs with
    | ':' :: ':' :: r => some (⟨[], some 0⟩, r)
    | ':' :: _ => none
    | [] => none
    | r => some (⟨[], none⟩, r)
  let pieces := start.bind fun (s, r) => ipv6Pieces 16 s r
  match pieces with
  | some ⟨read, some gap⟩ =>
    if read.length < 8 then
      .ok (read.take gap ++ List.replicate (8 - read.length) 0 ++ read.drop gap)
    else if read.length = 8 then .ok read else .error .ipv6
  | some ⟨read, none⟩ => if read.length = 8 then .ok read else .error .ipv6
  | none => .error .ipv6

def zeroRun (ps : List Nat) : Nat := (ps.takeWhile (· = 0)).length

/-- Where the first longest run of zeros starts, and its length. -/
def longestZeros (ps : List Nat) : Nat × Nat :=
  (List.range ps.length).foldl
    (fun best i => if best.2 < zeroRun (ps.drop i) then (i, zeroRun (ps.drop i)) else best) (0, 0)

/-- Hexadecimal pieces between colons; the longest run of at least two zeros is left out. -/
def ipv6Text (ps : List Nat) : String :=
  let show_ (xs : List Nat) : String :=
    String.intercalate ":" (xs.map fun n => String.ofList (Nat.toDigits 16 n))
  let (start, n) := longestZeros ps
  if n < 2 then show_ ps else show_ (ps.take start) ++ "::" ++ show_ (ps.drop (start + n))

def ipv4Text (n : Nat) : String :=
  String.intercalate "." ([16777216, 65536, 256, 1].map fun unit => toString (n / unit % 256))

/-- The host as it stands in a URL. -/
def text : Host → String
  | .name s => s
  | .ipv4 n => ipv4Text n
  | .ipv6 ps => "[" ++ ipv6Text ps ++ "]"

/-! ### Names -/

/-- Characters that no name may contain. -/
def isForbidden (c : Char) : Bool :=
  c.toNat ≤ 32 || c.toNat = 127 || "%#/:<>?@[\\]^|".toList.contains c

/-- A name with its international labels in Punycode. -/
def asciiName (cs : List Char) : Except AddressFault (List Char) :=
  match cs.mapM NameForm.form? with
  | none => .error .domainName
  | some forms =>
    match (labels forms.flatten).mapM NameForm.label? with
    | none => .error .domainName
    | some ls =>
      let ascii := ['.'].intercalate ls
      if ascii.any isForbidden then .error .domainName else .ok ascii

def bracketed (cs : List Char) : Except AddressFault Host :=
  if cs.getLast? = some ']' then (parseIpv6 cs.dropLast).map .ipv6 else .error .ipv6

/-- The host of a URL whose scheme the standard knows. -/
def parse (cs : List Char) : Except AddressFault Host :=
  match cs with
  | '[' :: r => bracketed r
  | cs => do
    let name ← asciiName (Utf8.decodeLossy (Percent.decode (Utf8.encode cs)))
    if name = [] then .error .emptyHost
    if endsInNumber name then return .ipv4 (← parseIpv4 name)
    return .name (String.ofList name)

def isForbiddenOpaque (c : Char) : Bool :=
  c.toNat = 0 || "\t\n\r #/:<>?@[\\]^|".toList.contains c

/-- The host of any other URL. -/
def parseOpaque (cs : List Char) : Except AddressFault Host :=
  match cs with
  | '[' :: r => bracketed r
  | cs =>
    if cs.any isForbiddenOpaque then .error .domainCharacter
    else .ok (.name (String.ofList (Percent.encode Percent.isControl cs)))

end Host

end Harvesting
