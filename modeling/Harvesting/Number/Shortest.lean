import Harvesting.Number.Binary64
import Harvesting.Text.Decimal

/-!
# Shortest decimal texts

The fewest decimal digits that read back as the same binary number, and the notations they are
written in.

* `Shortest.digits` — the digits and the power of ten of the first of them;
* `Style` — which powers are written positionally and how an exponent looks;
* `Shortest.text` — the text of a number in a notation.

A decimal reads back as a number exactly if it lies in the interval of reals that round to it, ends
included iff the mantissa is even. For one digit, two, and so on the two neighbours of the number on
that decimal grid are tried; the first grid with a hit wins, and of two hits the nearer one.
-/

namespace Harvesting.Shortest

open Binary64

def atLeastPower (num den : Nat) (e : Int) : Bool :=
  if 0 ≤ e then den * Nat.pow 10 e.toNat ≤ num else den ≤ num * Nat.pow 10 (-e).toNat

/-- The power of ten of the first digit of `num / den`, searched upwards from `e`. -/
def leadingPower (num den : Nat) : Nat → Int → Int
  | 0, e => e
  | fuel + 1, e => if atLeastPower num den (e + 1) then leadingPower num den fuel (e + 1) else e

/--
The grid point `k · 10 ^ s` reads back as `m · 2 ^ q`. Both are compared in quarters of the last
mantissa bit: `m` stands for `4 m`, its upper end is `4 m + 2`, and its lower end `4 m - 2`, or
`4 m - 1` at a power of two, where the numbers below are twice as dense.
-/
def readsBack (m : Nat) (q : Int) (k : Nat) (s : Int) : Bool :=
  -- k · 10^s · 4 / 2^q as a fraction; a negative exponent counts on the other side
  let num := 4 * k * Nat.pow 10 s.toNat * Nat.pow 2 (-q).toNat
  let den := Nat.pow 10 (-s).toNat * Nat.pow 2 q.toNat
  let lower := if m = Nat.pow 2 52 ∧ minExponent < q then 4 * m - 1 else 4 * m - 2
  let upper := 4 * m + 2
  if m % 2 = 0 then lower * den ≤ num && num ≤ upper * den
  else lower * den < num && num < upper * den

/-- The neighbour of `num / den` on the grid of `10 ^ s` that reads back, the nearer one first. -/
def onGrid (m : Nat) (q : Int) (num den : Nat) (s : Int) : Option Nat :=
  let (n, d) := if 0 ≤ s then (num, den * Nat.pow 10 s.toNat) else (num * Nat.pow 10 (-s).toNat, den)
  let k := n / d
  let below := readsBack m q k s
  let above := readsBack m q (k + 1) s
  if below && above then some (roundEven n d)
  else if below then some k
  else if above then some (k + 1)
  else none

/-- The first grid with a hit, from `places` digits on. -/
def search (m : Nat) (q : Int) (num den : Nat) (lead : Int) : Nat → Nat → Nat × Int
  | 0, places => (0, lead - places)
  | fuel + 1, places =>
    let s := lead + 1 - places
    match onGrid m q num den s with
    | some k => (k, s)
    | none => search m q num den lead fuel (places + 1)

/-- The digits of `m · 2 ^ q`, without zeros at the end, and the power of ten of the first one. -/
def digits (m : Nat) (q : Int) : List Char × Int :=
  let (num, den) := if 0 ≤ q then (m * Nat.pow 2 q.toNat, 1) else (m, Nat.pow 2 (-q).toNat)
  let guess : Int := ((num.log2 : Int) - den.log2 - 1) * 30103 / 100000 - 1
  let lead := leadingPower num den 8 guess
  let (k, s) := search m q num den lead 18 1
  let ds := Text.Decimal.digits k
  ((ds.reverse.dropWhile (· = '0')).reverse, s + ds.length - 1)

/-- How a number is written. -/
structure Style where
  /-- The least power of the first digit that is written positionally. -/
  leastPositional : Int
  /-- The largest power of the first digit that is written positionally. -/
  mostPositional : Int
  /-- Whether a whole number ends in `.0`. -/
  point : Bool
  /-- Written before an exponent that is not negative. -/
  plus : String
  deriving Repr, DecidableEq

/-- Digits with the point after the place of `10 ^ 0`. -/
def positional (style : Style) (ds : List Char) (lead : Int) : String :=
  if lead < 0 then
    "0." ++ String.ofList (List.replicate (-lead - 1).toNat '0' ++ ds)
  else
    let whole := lead.toNat + 1
    if ds.length ≤ whole then
      String.ofList (ds ++ List.replicate (whole - ds.length) '0') ++ (if style.point then ".0" else "")
    else String.ofList (ds.take whole) ++ "." ++ String.ofList (ds.drop whole)

/-- One digit, the others after a point, and the exponent. -/
def scientific (style : Style) (ds : List Char) (lead : Int) : String :=
  String.ofList (ds.take 1) ++ (if 1 < ds.length then "." ++ String.ofList (ds.drop 1) else "") ++
    "e" ++ (if lead < 0 then "-" else style.plus) ++ toString lead.natAbs

def text (style : Style) : Binary64 → String
  | .nan => "NaN"
  | .infinite s => if s then "-inf" else "inf"
  | .finite s m q =>
    let sign := if s then "-" else ""
    if m = 0 then sign ++ (if style.point then "0.0" else "0")
    else
      let (ds, lead) := digits m q
      sign ++ (if style.leastPositional ≤ lead ∧ lead ≤ style.mostPositional then
        positional style ds lead else scientific style ds lead)

def plain : Style := ⟨-400, 400, false, ""⟩

end Harvesting.Shortest
