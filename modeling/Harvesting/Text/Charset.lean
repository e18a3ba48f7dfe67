import Harvesting.Text.MediaType
import Harvesting.Text.SingleByte
import Harvesting.Text.Utf8

/-!
# Character sets

The texts that bytes stand for.

* `Charset` and `Charset.ofLabel?` — the sets and the labels that name them;
* `Charset.decode` — the text of bytes; a byte order mark decides before the label does;
* `Charset.ofContentType` — the set that a content type names, or UTF-8.

The sets of Chinese, Japanese and Korean with more than a byte for some characters (GBK and GB 18030, Big5,
EUC-JP, ISO 2022-JP and Shift JIS, EUC-KR) are left out: their labels name no set here, and a text with such
a label is read as UTF-8.
-/

namespace Harvesting.Text

/-- The sets of characters that are read. -/
inductive Charset where
  | utf8
  | utf16 (bigEndian : Bool)
  | singleByte (s : SingleByte)
  /-- Of the sets that are not to be read any more. -/
  | retired
  deriving Repr, DecidableEq

namespace Charset

/-- The labels of the sets that do not have a byte for each character. -/
def labels : List (Charset × List String) := [
  (utf8, ["utf-8", "utf8", "unicode-1-1-utf-8", "unicode11utf8", "unicode20utf8", "x-unicode20utf8"]),
  (utf16 false, ["utf-16", "utf-16le", "unicode", "ucs-2", "csunicode", "iso-10646-ucs-2", "unicodefeff"]),
  (utf16 true, ["utf-16be", "unicodefffe"]),
  (retired, ["replacement", "csiso2022kr", "hz-gb-2312", "iso-2022-cn", "iso-2022-cn-ext", "iso-2022-kr"])]

/-- The set that a label names, in any letter case and with blanks around it. -/
def ofLabel? (label : List Char) : Option Charset :=
  let isSpace (c : Char) : Bool := c = ' ' || c = '\t' || c = '\n' || c = '\r' || c = '\x0c'
  let bare := ((label.dropWhile isSpace).reverse.dropWhile isSpace).reverse
  let lower := String.ofList (bare.map Char.toLower)
  match labels.find? (·.2.contains lower) with
  | some set => some set.1
  | none => (SingleByte.all.find? (·.labels.contains lower)).map singleByte

/-- The units of 16 bits of some bytes; a byte that is left over is no unit. -/
def units (bigEndian : Bool) : List UInt8 → List (Option Nat)
  | a :: b :: r =>
    some (if bigEndian then 256 * a.toNat + b.toNat else 256 * b.toNat + a.toNat) :: units bigEndian r
  | [_] => [none]
  | [] => []

/-- The characters of units; a surrogate without its partner is replaced. -/
def ofUnits : List (Option Nat) → List Char
  | some hi :: some lo :: r =>
    if 0xD800 ≤ hi ∧ hi < 0xDC00 ∧ 0xDC00 ≤ lo ∧ lo < 0xE000 then
      Char.ofNat (0x10000 + (hi - 0xD800) * 0x400 + (lo - 0xDC00)) :: ofUnits r
    else unit (some hi) :: ofUnits (some lo :: r)
  | u :: r => unit u :: ofUnits r
  | [] => []
where
  unit : Option Nat → Char
    | some n => if n.isValidChar then Char.ofNat n else Utf8.replacement
    | none => Utf8.replacement

/-- The text of bytes without a mark. -/
def decodeBare (set : Charset) (bytes : List UInt8) : List Char :=
  match set with
  | utf8 => Utf8.decodeLossy bytes
  | singleByte s => s.decode bytes
  | utf16 bigEndian => ofUnits (units bigEndian bytes)
  | retired => if bytes = [] then [] else [Utf8.replacement]

def decode (set : Charset) : List UInt8 → List Char
  | 0xEF :: 0xBB :: 0xBF :: r => decodeBare utf8 r
  | 0xFF :: 0xFE :: r => decodeBare (utf16 false) r
  | 0xFE :: 0xFF :: r => decodeBare (utf16 true) r
  | bytes => decodeBare set bytes

def ofContentType (contentType : Option String) : Charset :=
  ((contentType.bind MediaType.parameters?).bind fun ps =>
    (ps.lookup "charset").bind fun label => ofLabel? label.toList).getD utf8

end Charset

end Harvesting.Text
