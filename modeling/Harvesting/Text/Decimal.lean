/-!
# Decimal numerals

Reading and writing whole numbers in base ten.

* `numeral` — the value of a run of digits;
* `unsigned?` — a text that is a numeral and nothing else, with an optional plus sign, below a bound;
* `padded` — a number with leading zeros up to a width.
-/

namespace Harvesting.Text.Decimal

/-- The value of a run of digits, after the value `acc` of the digits before it. -/
def numeralFrom (acc : Nat) (ds : List Char) : Nat :=
  ds.foldl (fun n c => 10 * n + (c.toNat - '0'.toNat)) acc

/-- The value of a run of digits. -/
def numeral (ds : List Char) : Nat := numeralFrom 0 ds

/--
The number written by the whole text: at least one digit, an optional plus sign before them, and a
value below `bound`.
-/
def unsigned? (bound : Nat) (s : String) : Option Nat :=
  let cs := match s.toList with
    | '+' :: r => r
    | cs => cs
  if cs ≠ [] ∧ cs.all Char.isDigit ∧ numeral cs < bound then some (numeral cs) else none

/-- The numeral of `n`, most significant digit first. -/
def digits (n : Nat) : List Char := Nat.toDigits 10 n

/-- The numeral of `n` with zeros in front, up to `width` characters. -/
def padded (width n : Nat) : String :=
  let ds := digits n
  String.ofList (List.replicate (width - ds.length) '0' ++ ds)

end Harvesting.Text.Decimal
