import Harvesting.Text.Blank
import Harvesting.Text.Utf8
import Harvesting.Time.Instant

/-!
# Internet timestamps

Reading and writing instants as in RFC 3339, `2020-01-31T10:00:00.25+02:00`.

* `Stamp.Fault` — why a text is not a timestamp, with its wording;
* `Stamp.strict` — the grammar of the RFC to the letter;
* `Stamp.lenient` — the same with blanks between the parts, short numbers and long years;
* `Stamp.calendarDay` — a date alone, `2020-01-31`;
* `Stamp.text`, `Stamp.secondsText` — writing with as many decimals as needed, or none.

Readers consume characters from the left and return the rest. Where the two grammars differ only in
how one part is read, they share the readers below.
-/

namespace Harvesting.Stamp

/-- Why a text is not a timestamp. -/
inductive Fault where
  | outOfRange
  | impossible
  | invalid
  | tooShort
  | tooLong
  deriving Repr, DecidableEq

def Fault.message : Fault → String
  | .outOfRange => "input is out of range"
  | .impossible => "no possible date and time matching input"
  | .invalid => "input contains invalid characters"
  | .tooShort => "premature end of input"
  | .tooLong => "trailing input"

/-! ### Parts

A reader of one part gives its value and the rest of the text.
-/

/-- The largest value that a number may have. -/
def maxNumber : Nat := 9223372036854775807

/-- A number of at least `least` digits; digits after the first `most` belong to the rest. -/
def number (least : Nat) (most : Option Nat) (cs : List Char) : Except Fault (Nat × List Char) :=
  let window := match most with
    | some m => cs.take m
    | none => cs
  let ds := window.takeWhile Char.isDigit
  if Utf8.length cs < least then .error .tooShort
  else if ds.length < least then .error .invalid
  else if maxNumber < Text.Decimal.numeral ds then .error .outOfRange
  else .ok (Text.Decimal.numeral ds, cs.drop ds.length)

def literal (c : Char) : List Char → Except Fault (Unit × List Char)
  | [] => .error .tooShort
  | x :: r => if x = c then .ok ((), r) else .error .invalid

/-- The letter or space between date and time. -/
def separator : List Char → Except Fault (Unit × List Char)
  | [] => .error .tooShort
  | x :: r => if x = 'T' ∨ x = 't' ∨ x = ' ' then .ok ((), r) else .error .invalid

/-- Refuses a number outside its bounds. -/
def within (lo hi : Nat) (n : Nat) : Except Fault Nat :=
  if lo ≤ n ∧ n ≤ hi then .ok n else .error .outOfRange

/--
A fraction of a second in nanoseconds: none, or a point and at least one digit. Digits after the
ninth are read and dropped.
-/
def fraction : List Char → Except Fault (Nat × List Char)
  | '.' :: r => do
    let (n, rest) ← number 1 (some 9) r
    let places := r.length - rest.length
    return (n * Nat.pow 10 (9 - places), rest.dropWhile Char.isDigit)
  | cs => .ok (0, cs)

/-- Two digits that follow each other, judged by the bytes of the text. -/
def twoDigits (cs : List Char) : Except Fault (Nat × List Char) :=
  if Utf8.length cs < 2 then .error .tooShort
  else match cs with
    | a :: b :: r =>
      if a.isDigit && b.isDigit then .ok (Text.Decimal.numeral [a, b], r) else .error .invalid
    | _ => .error .invalid

/-- The sign of an offset: whether it is negative. The minus sign of typography counts as one. -/
def offsetSign : List Char → Except Fault (Bool × List Char)
  | [] => .error .tooShort
  | c :: r =>
    if c = '+' then .ok (false, r)
    else if c = '-' ∨ c.val = 0x2212 then .ok (true, r)
    else .error .invalid

/-- The offset from universal time in seconds; `between` reads what stands before the minutes. -/
def offset (between : List Char → Except Fault (Unit × List Char)) : List Char → Except Fault (Int × List Char)
  | 'Z' :: r | 'z' :: r => .ok (0, r)
  | cs => do
    let (negative, r) ← offsetSign cs
    let (hours, r) ← twoDigits r
    let ((), r) ← between r
    let (minutes, rest) ← twoDigits r
    if 60 ≤ minutes then .error .outOfRange
    let secs : Int := hours * 3600 + minutes * 60
    return (if negative then -secs else secs, rest)

/-! ### The instant of the parts -/

/-- What a complete timestamp says. -/
structure Fields where
  date : Date
  hour : Nat
  minute : Nat
  second : Nat
  nanos : Nat
  offset : Int
  deriving Repr, DecidableEq

/--
The instant that the fields name. Second 60 is the leap second after second 59; a date that the
calendar does not have is out of range, and so is an offset of a day or more.
-/
def Fields.instant? (f : Fields) : Except Fault Instant := do
  if ¬ f.date.Valid ∨ f.date.toDays < Date.minDays ∨ Date.maxDays < f.date.toDays then
    .error .outOfRange
  if f.offset ≤ -86400 ∨ 86400 ≤ f.offset then .error .outOfRange
  let second := min f.second 59
  let nanos := f.nanos + (if f.second = 60 then Instant.nanosPerSec else 0)
  let secs := f.date.toDays * Instant.secsPerDay + (f.hour * 3600 + f.minute * 60 + second : Nat) - f.offset
  let t : Instant := ⟨secs, nanos⟩
  if t.InRange then return t else .error .impossible

/-- A clock time, its parts separated as `colon` reads it and each number read by `num`. -/
def clock (num : List Char → Except Fault (Nat × List Char)) (colon : List Char → Except Fault (Unit × List Char)) (cs : List Char) :
    Except Fault ((Nat × Nat × Nat × Nat) × List Char) := do
  let (hour, r) ← num cs
  let hour ← within 0 23 hour
  let ((), r) ← colon r
  let (minute, r) ← num r
  let minute ← within 0 59 minute
  let ((), r) ← colon r
  let (second, r) ← num r
  let second ← within 0 60 second
  let (nanos, r) ← fraction r
  return ((hour, minute, second, nanos), r)

/-! ### The grammar of the RFC -/

/-- The largest offset that the RFC can write, 23:59. -/
def maxOffset : Int := 86340

/-- A timestamp as RFC 3339 writes it, and nothing else. -/
def strict (cs : List Char) : Except Fault Instant := do
  let (year, r) ← number 4 (some 4) cs
  let ((), r) ← literal '-' r
  let (month, r) ← number 2 (some 2) r
  let month ← within 1 12 month
  let ((), r) ← literal '-' r
  let (day, r) ← number 2 (some 2) r
  let day ← within 1 31 day
  let ((), r) ← separator r
  let ((hour, minute, second, nanos), r) ← clock (number 2 (some 2)) (literal ':') r
  let (off, r) ← offset (literal ':') r
  if off < -maxOffset ∨ maxOffset < off then .error .outOfRange
  if r ≠ [] then .error .tooLong
  Fields.instant? ⟨⟨year, month, day⟩, hour, minute, second, nanos, off⟩

/-! ### The lenient grammar -/

/-- A year: any number of digits after a sign, up to four without one. Blanks may come first. -/
def year (cs : List Char) : Except Fault (Int × List Char) :=
  match Text.trimStart cs with
  | '-' :: r => do
    let (n, r) ← number 1 none r
    return (-(n : Int), r)
  | '+' :: r => do
    let (n, r) ← number 1 none r
    return ((n : Int), r)
  | r => do
    let (n, r) ← number 1 (some 4) r
    return ((n : Int), r)

/-- Refuses a year that 32 bits cannot hold. -/
def yearWithin (y : Int) : Except Fault Int :=
  if -2147483648 ≤ y ∧ y ≤ 2147483647 then .ok y else .error .outOfRange

/-- One or two digits, after blanks. -/
def short (cs : List Char) : Except Fault (Nat × List Char) := number 1 (some 2) (Text.trimStart cs)

def spaced (c : Char) (cs : List Char) : Except Fault (Unit × List Char) := literal c (Text.trimStart cs)

/-- Year, month and day; `dash` reads what stands between them. -/
def dateParts (dash : List Char → Except Fault (Unit × List Char)) (cs : List Char) : Except Fault (Date × List Char) := do
  let (y, r) ← year cs
  let y ← yearWithin y
  let ((), r) ← dash r
  let (month, r) ← short r
  let month ← within 1 12 month
  let ((), r) ← dash r
  let (day, r) ← short r
  let day ← within 1 31 day
  return (⟨y, month, day⟩, r)

/-- Colons and blanks in any number before the minutes of an offset. -/
def colonOrBlank (cs : List Char) : Except Fault (Unit × List Char) :=
  .ok ((), cs.dropWhile fun c => c = ':' || Text.isBlank c)

/-- An offset, or the name of universal time. -/
def lenientOffset (cs : List Char) : Except Fault (Int × List Char) :=
  match cs with
  | u :: t :: c :: r =>
    if [u, t, c].map Char.toUpper = ['U', 'T', 'C'] then .ok (0, r) else offset colonOrBlank cs
  | _ => offset colonOrBlank cs

/-- A timestamp with blanks between its parts, short numbers and any year. -/
def lenient (cs : List Char) : Except Fault Instant := do
  let (date, r) ← dateParts (spaced '-') cs
  let ((), r) ← separator r
  let ((hour, minute, second, nanos), r) ← clock short (spaced ':') r
  let (off, r) ← lenientOffset (Text.trimStart r)
  if Text.trimStart r ≠ [] then .error .tooLong
  Fields.instant? ⟨date, hour, minute, second, nanos, off⟩

/-- A date alone, up to the end of the text. -/
def calendarDay (cs : List Char) : Except Fault Date := do
  let (date, r) ← dateParts (literal '-') cs
  if r ≠ [] then .error .tooLong
  if date.Valid ∧ Date.minDays ≤ date.toDays ∧ date.toDays ≤ Date.maxDays then return date
  else .error .outOfRange

/-! ### Writing -/

/-- A year of four digits; years outside 0 to 9999 have a sign. -/
def yearText (y : Int) : String :=
  if 0 ≤ y ∧ y ≤ 9999 then Text.Decimal.padded 4 y.toNat
  else (if y < 0 then "-" else "+") ++ Text.Decimal.padded 4 y.natAbs

def dateText (d : Date) : String :=
  yearText d.year ++ "-" ++ Text.Decimal.padded 2 d.month ++ "-" ++ Text.Decimal.padded 2 d.day

/-- Hours, minutes and seconds; a leap second is second 60. -/
def clockText (t : Instant) : String :=
  let s := t.secOfDay.toNat
  let two := Text.Decimal.padded 2
  two (s / 3600) ++ ":" ++ two (s / 60 % 60) ++ ":" ++ two (s % 60 + if t.isLeap then 1 else 0)

def secondsText (t : Instant) : String :=
  dateText (Date.ofDays t.day) ++ "T" ++ clockText t ++ "Z"

/-- The fraction of a second in milli-, micro- or nanoseconds, whichever is enough. -/
def fractionText (nanos : Nat) : String :=
  if nanos = 0 then ""
  else if nanos % 1000000 = 0 then "." ++ Text.Decimal.padded 3 (nanos / 1000000)
  else if nanos % 1000 = 0 then "." ++ Text.Decimal.padded 6 (nanos / 1000)
  else "." ++ Text.Decimal.padded 9 nanos

/-- The instant with its whole fraction, as universal time. -/
def text (t : Instant) : String :=
  dateText (Date.ofDays t.day) ++ "T" ++ clockText t ++ fractionText (t.nanos % Instant.nanosPerSec) ++ "Z"

end Harvesting.Stamp
