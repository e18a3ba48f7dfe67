import Harvesting.Web.Punycode

/-!
# Forms of international names

The characters of a name are brought into one form (Unicode Technical Standard 46, without the
transitional rules): lower case, plain instead of full-width, and nothing for characters that cannot be
seen.

* `NameForm.form?` — the form of a character;
* `NameForm.label?` — the ASCII form of a label.

Not every script is there. Characters of scripts other than Latin, Greek, Cyrillic, Armenian, Georgian,
Han, Kana, Bopomofo and Hangul are refused although the standard knows them, and so are marks that
combine with the letter before them, half-width forms and joiners; without these no label needs to be
composed and none runs from right to left. The length of labels is not limited.
-/

namespace Harvesting.NameForm

/-- Ranges of characters that are their own form. -/
def plain : List (Nat × Nat) :=
  [(0xA1, 0xA7), (0xA9, 0xA9), (0xAB, 0xAC), (0xAE, 0xAE), (0xB0, 0xB1), (0xB6, 0xB7), (0xBB, 0xBB),
    (0xBF, 0xBF), (0xD7, 0xD7), (0xDF, 0xFF), (0x131, 0x131), (0x138, 0x138), (0x2BC, 0x2BC),
    (0x390, 0x390), (0x3AC, 0x3CE), (0x430, 0x45F), (0x561, 0x586), (0x10D0, 0x10FA), (0x2044, 0x2044),
    (0x2600, 0x26FF), (0x3005, 0x3005), (0x3041, 0x3096), (0x309D, 0x309E), (0x30A1, 0x30FE),
    (0x3105, 0x312F), (0x3400, 0x4DBF), (0x4E00, 0x9FFC), (0xAC00, 0xD7A3), (0x1F300, 0x1F64F),
    (0x20000, 0x2A6DD)]

/-- Ranges in which a capital is followed by its small letter. -/
def alternating : List (Nat × Nat) :=
  [(0x100, 0x12F), (0x134, 0x137), (0x139, 0x13E), (0x141, 0x148), (0x14A, 0x177), (0x179, 0x17E),
    (0x1CD, 0x1DC), (0x1DE, 0x1EF), (0x200, 0x21F), (0x222, 0x233), (0x246, 0x24F), (0x460, 0x481),
    (0x48A, 0x4BF), (0x4C1, 0x4CE), (0x4D0, 0x52F), (0x1E00, 0x1E95), (0x1EA0, 0x1EFF)]

/-- Ranges of capitals, and how far behind them their small letters are. -/
def capitals : List ((Nat × Nat) × Nat) :=
  [((0xC0, 0xD6), 32), ((0xD8, 0xDE), 32), ((0x388, 0x38A), 37), ((0x391, 0x3A1), 32), ((0x3A3, 0x3AB), 32),
    ((0x400, 0x40F), 80), ((0x410, 0x42F), 32), ((0x531, 0x556), 48)]

/-- Characters with a form of their own. -/
def single : List (Char × String) :=
  [('ª', "a"), ('²', "2"), ('³', "3"), ('µ', "μ"), ('¹', "1"), ('º', "o"), ('¼', "1⁄4"), ('½', "1⁄2"),
    ('¾', "3⁄4"), ('Ĳ', "ij"), ('ĳ', "ij"), ('Ŀ', "l·"), ('ŀ', "l·"), ('ŉ', "ʼn"), ('Ÿ', "ÿ"), ('ſ', "s"),
    ('Ά', "ά"), ('Ό', "ό"), ('Ύ', "ύ"), ('Ώ', "ώ"), ('。', "."), ('｡', ".")]

/-- Ranges of characters that vanish. -/
def unseen : List (Nat × Nat) :=
  [(0xAD, 0xAD), (0x200B, 0x200B), (0x2060, 0x2060), (0xFE00, 0xFE0F), (0xFEFF, 0xFEFF)]

/-- Full-width characters, in the order of the plain ones from `!` on. -/
def fullWidth : Nat × Nat := (0xFF01, 0xFF5E)

def within (c : Char) (range : Nat × Nat) : Bool := range.1 ≤ c.toNat && c.toNat ≤ range.2

/-- The form of a character in names, if it may stand there. -/
def form? (c : Char) : Option (List Char) :=
  if c.toNat < 128 then some [c.toLower]
  else if plain.any (within c) then some [c]
  else match alternating.find? (within c), capitals.find? (within c ·.1), single.lookup c with
    | some range, _, _ => some [if c.toNat % 2 = range.1 % 2 then Char.ofNat (c.toNat + 1) else c]
    | none, some (_, behind), _ => some [Char.ofNat (c.toNat + behind)]
    | none, none, some form => some form.toList
    | none, none, none =>
      if unseen.any (within c) then some []
      else if within c fullWidth then some [(Char.ofNat (c.toNat - fullWidth.1 + 33)).toLower]
      else none

/-- The character is its own form. -/
def isSettled (c : Char) : Bool := form? c = some [c]

/-- The mark of labels that are written in Punycode. -/
def mark : List Char := "xn--".toList

/-- A label in Punycode stands for one that needs it, and could be written in no other way. -/
def isPunycode (cs : List Char) : Bool :=
  match Punycode.decode? cs with
  | some label => label.all isSettled && label.any (128 ≤ ·.toNat) && !mark.isPrefixOf label &&
      Punycode.encode label = cs
  | none => false

/-- The ASCII form of a label whose characters are their own forms; `none` if it has none. -/
def label? (cs : List Char) : Option (List Char) :=
  if mark.isPrefixOf cs then if isPunycode (cs.drop mark.length) then some cs else none
  else if cs.all fun c => c.toNat < 128 then some cs
  else some (mark ++ Punycode.encode cs)

end Harvesting.NameForm
