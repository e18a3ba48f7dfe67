/-!
# Punycode

The ASCII form of the labels of internationalised domain names (RFC 3492): the ASCII characters of the
label, a hyphen, and the places of the other characters as numbers of variable length in base 36.

* `Punycode.encode`, `Punycode.decode?`.
-/

namespace Harvesting.Punycode

/-- The character of a digit: letters, then figures. -/
def digitChar (d : Nat) : Char := Char.ofNat (if d < 26 then 97 + d else 22 + d)

def digit? (c : Char) : Option Nat :=
  let n := c.toNat
  if 97 ≤ n ∧ n ≤ 122 then some (n - 97)
  else if 65 ≤ n ∧ n ≤ 90 then some (n - 65)
  else if 48 ≤ n ∧ n ≤ 57 then some (n - 22)
  else none

/-- The least digit at place `k` that is not the last one of its number. -/
def threshold (k bias : Nat) : Nat :=
  if k ≤ bias then 1 else if bias + 26 ≤ k then 26 else k - bias

/-- Halves a difference until it is small, counting places. -/
def settle : Nat → Nat → Nat → Nat × Nat
  | 0, delta, k => (delta, k)
  | fuel + 1, delta, k => if 455 < delta then settle fuel (delta / 35) (k + 36) else (delta, k)

/-- The bias after a number. -/
def adapt (delta points : Nat) (isFirst : Bool) : Nat :=
  let delta := if isFirst then delta / 700 else delta / 2
  let (delta, k) := settle 32 (delta + delta / points) 0
  k + 36 * delta / (delta + 38)

/-- A number in digits, the least significant first. -/
def encodeNumber (bias : Nat) : Nat → Nat → Nat → List Char
  | 0, _, _ => []
  | fuel + 1, k, q =>
    let t := threshold k bias
    if q < t then [digitChar q]
    else digitChar (t + (q - t) % (36 - t)) :: encodeNumber bias fuel (k + 36) ((q - t) / (36 - t))

/-- Where the encoding of one code point stands. -/
structure Progress where
  written : List Char
  delta : Nat
  bias : Nat
  /-- Characters handled so far. -/
  handled : Nat

/-- One character of the label, while the code point `m` is being placed. -/
def place (basic m : Nat) (s : Progress) (c : Char) : Progress :=
  if c.toNat < m then { s with delta := s.delta + 1 }
  else if c.toNat = m then
    { written := s.written ++ encodeNumber s.bias 32 36 s.delta
      delta := 0
      bias := adapt s.delta (s.handled + 1) (s.handled = basic)
      handled := s.handled + 1 }
  else s

/-- The code points beyond ASCII in increasing order, each once. -/
def codePoints (label : List Char) : List Nat :=
  ((label.filter fun c => 128 ≤ c.toNat).map Char.toNat).mergeSort.eraseDups

/-- The ASCII form of a label, without its mark. -/
def encode (label : List Char) : List Char :=
  let basic := label.filter fun c => c.toNat < 128
  let start : Progress := ⟨[], 0, 72, basic.length⟩
  let (done, _) := (codePoints label).foldl
    (fun (s, n) m =>
      let s := { s with delta := s.delta + (m - n) * (s.handled + 1) }
      let s := label.foldl (place basic.length m) s
      ({ s with delta := s.delta + 1 }, m + 1))
    (start, 128)
  basic ++ (if basic = [] then [] else ['-']) ++ done.written

/-- A number from its digits, and the digits after it. -/
def decodeNumber (bias : Nat) : Nat → Nat → Nat → List Char → Option (Nat × List Char)
  | _, _, _, [] => none
  | k, weight, i, c :: r => do
    let d ← digit? c
    let t := threshold k bias
    let i := i + d * weight
    if d < t then some (i, r) else decodeNumber bias (k + 36) (weight * (36 - t)) i r

/-- Inserts the code points that the digits name. -/
def insertAll : Nat → Nat → Nat → Nat → List Nat → List Char → Option (List Nat)
  | _, _, _, _, points, [] => some points
  | 0, _, _, _, _, _ => none
  | fuel + 1, n, i, bias, points, cs => do
    let (j, rest) ← decodeNumber bias 36 1 i cs
    let size := points.length + 1
    let n := n + j / size
    let at_ := j % size
    if 0x10FFFF < n ∨ (0xD800 ≤ n ∧ n ≤ 0xDFFF) then none
    insertAll fuel n (at_ + 1) (adapt (j - i) size (i = 0)) (points.take at_ ++ n :: points.drop at_) rest

/-- The label of an ASCII form without its mark. -/
def decode? (cs : List Char) : Option (List Char) :=
  let reversed := cs.reverse
  let tail := (reversed.takeWhile (· ≠ '-')).reverse
  let basic := (reversed.drop (tail.length + 1)).reverse
  (insertAll tail.length 128 0 72 (basic.map Char.toNat) tail).map (·.map Char.ofNat)

end Harvesting.Punycode
