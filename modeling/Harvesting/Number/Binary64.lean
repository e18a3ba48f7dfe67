/-!
# Binary floating-point numbers of 64 bits

Finite numbers are `± m · 2 ^ q` with `m < 2 ^ 53` and `-1074 ≤ q ≤ 971`. Everything here is exact
integer arithmetic followed by one rounding.

* `Binary64` — the type; `ofRatio` — the nearest number to a fraction, ties to even;
* `ofDecimal` — the nearest number to `digits · 10 ^ exponent`;
* `mul`, `div` — product and quotient;
* `toRatio` — the exact value; `roundAway` — the nearest integer, halves away from zero.
-/

namespace Harvesting

/-- A binary floating-point number. -/
inductive Binary64 where
  /-- `mantissa · 2 ^ exponent`, with a sign that zero has too. -/
  | finite (negative : Bool) (mantissa : Nat) (exponent : Int)
  | infinite (negative : Bool)
  | nan
  deriving Repr, DecidableEq

namespace Binary64

def minExponent : Int := -1074

def maxExponent : Int := 971

def zero (negative : Bool) : Binary64 := .finite negative 0 minExponent

/-- The integer nearest to `num / den`, ties to even. -/
def roundEven (num den : Nat) : Nat :=
  let q := num / den
  let r := num % den
  if 2 * r < den then q
  else if den < 2 * r then q + 1
  else if q % 2 = 0 then q else q + 1

/-- `num / den · 2 ^ (-e)` as a fraction. -/
def scaled (num den : Nat) (e : Int) : Nat × Nat :=
  if 0 ≤ e then (num, den * Nat.pow 2 e.toNat) else (num * Nat.pow 2 (-e).toNat, den)

/-- The number nearest to `num / den`, ties to even; infinite beyond the largest one. -/
def ofRatio (negative : Bool) (num den : Nat) : Binary64 :=
  if num = 0 ∨ den = 0 then zero negative
  else
    let guess : Int := (num.log2 : Int) - den.log2 - 52
    let (n, d) := scaled num den guess
    let e := max (if n / d < Nat.pow 2 52 then guess - 1 else guess) minExponent
    let (n, d) := scaled num den e
    let m := roundEven n d
    let (m, e) := if m = Nat.pow 2 53 then (Nat.pow 2 52, e + 1) else (m, e)
    if maxExponent < e then .infinite negative
    else if m = 0 then zero negative
    else .finite negative m e

/-- The number nearest to `digits · 10 ^ exponent`. -/
def ofDecimal (negative : Bool) (digits : Nat) (exponent : Int) : Binary64 :=
  let magnitude : Int := (Nat.toDigits 10 digits).length + exponent
  if digits = 0 then zero negative
  else if 400 < magnitude then .infinite negative
  else if magnitude < -400 then zero negative
  else if 0 ≤ exponent then ofRatio negative (digits * Nat.pow 10 exponent.toNat) 1
  else ofRatio negative digits (Nat.pow 10 (-exponent).toNat)

/-- The exact value of a finite number as sign, numerator and denominator. -/
def toRatio? : Binary64 → Option (Bool × Nat × Nat)
  | .finite s m e => some (if 0 ≤ e then (s, m * Nat.pow 2 e.toNat, 1) else (s, m, Nat.pow 2 (-e).toNat))
  | _ => none

def isFinite : Binary64 → Bool
  | .finite .. => true
  | _ => false

/-- The product of two finite numbers. -/
def mul (a b : Binary64) : Binary64 :=
  match a.toRatio?, b.toRatio? with
  | some (s, n, d), some (t, n₂, d₂) => ofRatio (s != t) (n * n₂) (d * d₂)
  | _, _ => .nan

/-- The quotient of two finite numbers, the second of them not zero. -/
def div (a b : Binary64) : Binary64 :=
  match a.toRatio?, b.toRatio? with
  | some (s, n, d), some (t, n₂, d₂) => ofRatio (s != t) (n * d₂) (d * n₂)
  | _, _ => .nan

def neg : Binary64 → Binary64
  | .finite s m e => .finite (!s) m e
  | .infinite s => .infinite (!s)
  | .nan => .nan

/-- The nearest integer, halves away from zero; `none` for numbers that are not finite. -/
def roundAway? (x : Binary64) : Option Int :=
  x.toRatio?.map fun (s, n, d) =>
    let m := (2 * n + d) / (2 * d)
    if s then -(m : Int) else m

/--
The nearest integer within `lo` and `hi`: larger and smaller numbers go to the ends, and what is not
a number goes to zero.
-/
def clamped (lo hi : Int) (x : Binary64) : Int :=
  match x with
  | .nan => 0
  | .infinite s => if s then lo else hi
  | x => max lo (min hi (x.roundAway?.getD 0))

end Binary64

end Harvesting
