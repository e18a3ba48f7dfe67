import Harvesting.Time.Stamp

/-!
# Mail dates

Dates as in RFC 2822, `Wed, 01 Jan 2020 00:01:00 GMT`.

* `MailDate.read` — the instant of a date.

The day of the week may be missing and has to be right if it is there; seconds may be missing; years
of two and three digits are of the last or this century; comments in parentheses may follow.
-/

namespace Harvesting.MailDate

open Stamp (Fault number within)

def weekdays : List String := ["sun", "mon", "tue", "wed", "thu", "fri", "sat"]

def months : List String :=
  ["jan", "feb", "mar", "apr", "may", "jun", "jul", "aug", "sep", "oct", "nov", "dec"]

/-- The position of the three letters a text starts with among names, and the rest. -/
def shortName (names : List String) (cs : List Char) : Except Fault (Nat × List Char) :=
  match names.findIdx? (· = String.ofList ((cs.take 3).map Char.toLower)) with
  | some i => .ok (i, cs.drop 3)
  | none => .error (if Utf8.length cs < 3 then .tooShort else .invalid)

def space (cs : List Char) : Except Fault (List Char) :=
  let r := Text.trimStart cs
  if r.length < cs.length then .ok r else .error (if cs = [] then .tooShort else .invalid)

/-- The day of the week and its comma, if the text starts with them. -/
def weekday (cs : List Char) : Except Fault (Option Nat × List Char) :=
  match shortName weekdays cs with
  | .error _ => .ok (none, cs)
  | .ok (i, ',' :: r) => .ok (some i, r)
  | .ok _ => .error .invalid

def fullYear (places n : Nat) : Nat :=
  if places = 2 then (if n < 50 then 2000 + n else 1900 + n)
  else if places = 3 then 1900 + n
  else n

/-- The hours that named zones are behind universal time. -/
def zones : List (String × Int) := [("gmt", 0), ("ut", 0), ("edt", 4), ("est", 5), ("cdt", 5),
  ("cst", 6), ("mdt", 6), ("mst", 7), ("pdt", 7), ("pst", 8)]

/-- The offset of a zone in seconds: a name, a single letter other than `j`, or a signed number. -/
def zone (cs : List Char) : Except Fault (Int × List Char) :=
  let name := cs.takeWhile Char.isAlpha
  let rest := cs.drop name.length
  if name = [] then Stamp.offset (fun cs => .ok ((), cs)) cs
  else
    let lower := String.ofList (name.map Char.toLower)
    match zones.lookup lower with
    | some hours => .ok (-3600 * hours, rest)
    | none => if name.length = 1 ∧ lower ≠ "j" then .ok (0, rest) else .error .invalid

/-- What follows the parenthesis that closes a comment `depth` deep. -/
def afterComment? (depth : Nat) : List Char → Option (List Char)
  | [] => none
  | '\\' :: _ :: r => afterComment? depth r
  | '(' :: r => afterComment? (depth + 1) r
  | ')' :: r => if depth ≤ 1 then some r else afterComment? (depth - 1) r
  | _ :: r => afterComment? depth r

/-- The text without the comments it starts with; `fuel` bounds their number. -/
def withoutComments : Nat → List Char → List Char
  | 0, cs => cs
  | fuel + 1, cs =>
    match Text.trimStart cs with
    | '(' :: r =>
      match afterComment? 1 r with
      | some rest => withoutComments fuel rest
      | none => cs
    | _ => cs

/-- A colon, with blanks before it. -/
def colon (cs : List Char) : Except Fault (Unit × List Char) := Stamp.literal ':' (Text.trimStart cs)

/-- The seconds after a colon, if there is one. -/
def seconds (cs : List Char) : Except Fault (Nat × List Char) :=
  match colon cs with
  | .error _ => .ok (0, cs)
  | .ok ((), r) => number 2 (some 2) r

def read (s : String) : Except Fault Instant := do
  let (named, r) ← weekday (Text.trimStart s.toList)
  let (day, r) ← number 1 (some 2) (Text.trimStart r)
  let r ← space r
  let (month, r) ← shortName months r
  let r ← space r
  let (digits, rest) ← number 2 none r
  let year := fullYear (r.length - rest.length) digits
  let r ← space rest
  let (hour, r) ← number 2 (some 2) r
  let ((), r) ← colon r
  let (minute, r) ← number 2 (some 2) (Text.trimStart r)
  let (second, r) ← seconds r
  let r ← space r
  let (offset, r) ← zone r
  if withoutComments r.length r ≠ [] then .error .tooLong
  let hour ← within 0 23 hour
  let minute ← within 0 59 minute
  let second ← within 0 60 second
  let date : Date := ⟨year, month + 1, day⟩
  if named.any (· ≠ Date.weekday date.toDays) then .error .impossible
  Stamp.Fields.instant? ⟨date, hour, minute, second, 0, offset⟩

end Harvesting.MailDate
