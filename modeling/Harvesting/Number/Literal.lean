import Harvesting.Number.Binary64
import Harvesting.Text.Decimal
import Harvesting.Text.Reader

/-!
# Literals of numbers

Numbers as they are written in settings.

* `Literal.digitIn?`, `Literal.numeralIn` — digits and numerals in a base up to sixteen;
* `Literal.whole?` — a whole number of 64 bits with an optional sign;
* `Literal.real?` — a decimal number with an optional sign, fraction and exponent, or one of the words
  for the numbers that are not finite.
-/

namespace Harvesting.Literal

open Text Reader

/-- The value of a digit in a base up to sixteen. -/
def digitIn? (base : Nat) (c : Char) : Option Nat :=
  let n := c.toNat
  let value? :=
    if 48 ≤ n ∧ n ≤ 57 then some (n - 48)
    else if 65 ≤ n ∧ n ≤ 70 then some (n - 55)
    else if 97 ≤ n ∧ n ≤ 102 then some (n - 87)
    else none
  value?.filter (· < base)

/-- The value of digits in a base. -/
def numeralIn (base : Nat) (ds : List Char) : Nat :=
  ds.foldl (fun n c => base * n + (digitIn? base c).getD 0) 0

/-- The whole numbers of 64 bits with a sign. -/
def isWhole (n : Int) : Bool := -9223372036854775808 ≤ n && n ≤ 9223372036854775807

/-- A sign, if there is one: whether the number is negative. -/
def sign : Reader Bool
  | '-' :: r => some (true, r)
  | '+' :: r => some (false, r)
  | cs => some (false, cs)

/-- The whole number that digits write. -/
def withSign (negative : Bool) (n : Nat) : Int := if negative then -(n : Int) else n

/-- A whole number of 64 bits. -/
def whole? (cs : List Char) : Option Int := Reader.whole? (do
  let negative ← sign
  let ds ← nonempty Char.isDigit
  let n := withSign negative (Decimal.numeral ds)
  require (isWhole n)
  return n : Reader Int) cs

/-- The exponent of a number; zero if there is none. -/
def exponent : Reader Int
  | 'e' :: r | 'E' :: r => (do
      let negative ← sign
      return withSign negative (Decimal.numeral (← nonempty Char.isDigit)) : Reader Int) r
  | cs => some (0, cs)

/-- The digits before and after a point; at least one of them is there. -/
def significand : Reader (List Char × List Char) := do
  let before ← run Char.isDigit
  let after ← match ← peek with
    | some '.' => do
      char '.'
      run Char.isDigit
    | _ => pure []
  require (before ≠ [] ∨ after ≠ [])
  return (before, after)

def decimal (negative : Bool) : Reader Binary64 := do
  let (before, after) ← significand
  let e ← exponent
  return .ofDecimal negative (Decimal.numeral (before ++ after)) (e - after.length)

/-- A number that is not finite. -/
def notFinite? (negative : Bool) (cs : List Char) : Option Binary64 :=
  match String.ofList (cs.map Char.toLower) with
  | "inf" | "infinity" => some (.infinite negative)
  | "nan" => some .nan
  | _ => none

def real? (cs : List Char) : Option Binary64 := do
  let (negative, r) ← sign cs
  (notFinite? negative r).or (Reader.whole? (decimal negative) r)

end Harvesting.Literal
