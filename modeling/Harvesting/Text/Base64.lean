/-!
# Base 64

Bytes as letters, digits and two signs, six bits each. Three bytes make four characters; what is missing
at the end is filled with equals signs.

* `Base64.sign` — the character for six bits; `Base64.encode` — the characters for some bytes.
-/

namespace Harvesting.Base64

def sign (n : Nat) : Char :=
  if n < 26 then Char.ofNat (65 + n)
  else if n < 52 then Char.ofNat (71 + n)
  else if n < 62 then Char.ofNat (n - 4)
  else if n = 62 then '+'
  else '/'

def encode : List UInt8 → List Char
  | a :: b :: c :: r =>
    let n := a.toNat * 65536 + b.toNat * 256 + c.toNat
    sign (n / 262144) :: sign (n / 4096 % 64) :: sign (n / 64 % 64) :: sign (n % 64) :: encode r
  | [a, b] =>
    let n := a.toNat * 65536 + b.toNat * 256
    [sign (n / 262144), sign (n / 4096 % 64), sign (n / 64 % 64), '=']
  | [a] =>
    let n := a.toNat * 65536
    [sign (n / 262144), sign (n / 4096 % 64), '=', '=']
  | [] => []

end Harvesting.Base64
