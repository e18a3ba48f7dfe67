/-!
# UTF-8

* `Utf8.encodeChar`, `Utf8.encode` — the bytes of characters;
* `Utf8.decodeLossy` — the characters of bytes; each longest part that cannot be completed to a
  character becomes one replacement character;
* `Utf8.cut` — the longest beginning of a text that fits into so many bytes.
-/

namespace Harvesting.Utf8

def encodeChar (c : Char) : List UInt8 :=
  let n := c.toNat
  if n < 0x80 then [UInt8.ofNat n]
  else if n < 0x800 then [UInt8.ofNat (0xC0 + n / 0x40), UInt8.ofNat (0x80 + n % 0x40)]
  else if n < 0x10000 then
    [UInt8.ofNat (0xE0 + n / 0x1000), UInt8.ofNat (0x80 + n / 0x40 % 0x40), UInt8.ofNat (0x80 + n % 0x40)]
  else
    [UInt8.ofNat (0xF0 + n / 0x40000), UInt8.ofNat (0x80 + n / 0x1000 % 0x40),
      UInt8.ofNat (0x80 + n / 0x40 % 0x40), UInt8.ofNat (0x80 + n % 0x40)]

def encode (cs : List Char) : List UInt8 := cs.flatMap encodeChar

/-- Stands for bytes that are no character. -/
def replacement : Char := '\uFFFD'

/-- A byte that continues a character, in the bounds that the byte before it leaves. -/
def continues (lo hi : Nat) (b : UInt8) : Bool := lo ≤ b.toNat && b.toNat ≤ hi

/--
How a byte starts a character: how many bytes follow, the bounds of the first of them, and the part of
the code point that the byte holds.
-/
def lead? (b : UInt8) : Option (Nat × Nat × Nat × Nat) :=
  let n := b.toNat
  if n < 0x80 then some (0, 0, 0, n)
  else if 0xC2 ≤ n ∧ n ≤ 0xDF then some (1, 0x80, 0xBF, n - 0xC0)
  else if n = 0xE0 then some (2, 0xA0, 0xBF, 0)
  else if n = 0xED then some (2, 0x80, 0x9F, 13)
  else if 0xE1 ≤ n ∧ n ≤ 0xEF then some (2, 0x80, 0xBF, n - 0xE0)
  else if n = 0xF0 then some (3, 0x90, 0xBF, 0)
  else if 0xF1 ≤ n ∧ n ≤ 0xF3 then some (3, 0x80, 0xBF, n - 0xF0)
  else if n = 0xF4 then some (3, 0x80, 0x8F, 4)
  else none

/-- The bytes after the first one of a character: the code point if complete, and how many were used. -/
def follow (acc used : Nat) : Nat → Nat → Nat → List UInt8 → Option Nat × Nat
  | 0, _, _, _ => (some acc, used)
  | _ + 1, _, _, [] => (none, used)
  | k + 1, lo, hi, b :: r =>
    if continues lo hi b then follow (64 * acc + (b.toNat - 0x80)) (used + 1) k 0x80 0xBF r
    else (none, used)

/-- The first character of some bytes, and how many bytes after the first one belong to it. -/
def first (b : UInt8) (r : List UInt8) : Char × Nat :=
  match lead? b with
  | none => (replacement, 0)
  | some (k, lo, hi, n) =>
    match follow n 0 k lo hi r with
    | (some code, used) => (Char.ofNat code, used)
    | (none, used) => (replacement, used)

def decodeLossy : List UInt8 → List Char
  | [] => []
  | b :: r => (first b r).1 :: decodeLossy (r.drop (first b r).2)
termination_by bs => bs.length
decreasing_by
  simp only [List.length_drop, List.length_cons]
  omega

/-- Number of bytes of a text. -/
def length : List Char → Nat
  | [] => 0
  | c :: r => c.utf8Size + length r

/-- The longest beginning of a text that fits into `budget` bytes. -/
def cut (budget : Nat) : List Char → List Char
  | [] => []
  | c :: r => if c.utf8Size ≤ budget then c :: cut (budget - c.utf8Size) r else []

end Harvesting.Utf8
