import Harvesting.Text.Base64
import Harvesting.Web.Exchange

/-!
# The wire

Calls and their answers as bytes, the way HTTP/1.1 writes them: a first line, a header on each line, an
empty line, and the body.

* `Call.message` — the bytes of a call;
* `Wire.line?`, `Wire.head?` — the lines at the beginning of an answer, and what follows them;
* `Wire.Body`, `Wire.body` — the body as far as it came, by the rule that its headers choose: in chunks,
  of a length, or up to the end of the connection;
* `Wire.read?` — the reply in the bytes that came so far, or none while more are to come.
-/

namespace Harvesting

/-! ### Calls -/

/-- The name and the password of an address, as a header gives them. -/
def Call.authorization (a : Address) : Option String :=
  if a.username = "" ∧ a.password = "" then none
  else
    let plain (s : String) : List UInt8 := Percent.decode s.toUTF8.toList
    some ("Basic " ++ String.ofList (Base64.encode (plain a.username ++ 58 :: plain a.password)))

def Call.headers (c : Call) : List (String × String) :=
  let given (name : String) (value : Option String) : List (String × String) :=
    (value.map fun v => (name, v)).toList
  given "content-type" c.contentType ++ given "user-agent" c.userAgent ++
    given "authorization" (Call.authorization c.address) ++
    [("accept", "*/*"), ("host", c.address.hostAndPort), ("connection", "close")] ++
    given "content-length" (c.body.map fun b => toString b.utf8ByteSize)

def Call.message (c : Call) : List UInt8 :=
  let head := (c.line ++ " HTTP/1.1\r\n") ::
    (c.headers.map fun h => h.1 ++ ": " ++ h.2 ++ "\r\n") ++ ["\r\n", c.body.getD ""]
  (String.join head).toUTF8.toList

/-! ### Answers -/

namespace Wire

/-- The first line, without its end, and what follows it. -/
def line? : List UInt8 → Option (List UInt8 × List UInt8)
  | [] => none
  | 10 :: r => some ([], r)
  | 13 :: 10 :: r => some ([], r)
  | b :: r => (line? r).map fun (l, rest) => (b :: l, rest)

/-- What follows a line is shorter than the whole. -/
theorem length_lt_of_line? {bs l rest : List UInt8} (h : line? bs = some (l, rest)) :
    rest.length < bs.length := by
  fun_induction line? bs generalizing l rest with
  | case1 => simp at h
  | case2 r =>
    obtain ⟨_, rfl⟩ := Prod.mk.inj (Option.some.inj h)
    exact Nat.lt_succ_self _
  | case3 r =>
    obtain ⟨_, rfl⟩ := Prod.mk.inj (Option.some.inj h)
    simp only [List.length_cons]
    omega
  | case4 b r _ _ ih =>
    obtain ⟨⟨l', rest'⟩, hr, heq⟩ := Option.map_eq_some_iff.1 h
    obtain ⟨_, rfl⟩ := Prod.mk.inj heq
    have := ih hr
    simp only [List.length_cons]
    omega

/-- The text of a line, each byte a character. -/
def latin (bs : List UInt8) : String := String.ofList (bs.map fun b => Char.ofNat b.toNat)

/-- The lines up to an empty one, and what follows it. -/
def head? (bs : List UInt8) : Option (List String × List UInt8) :=
  match _h : line? bs with
  | none => none
  | some ([], rest) => some ([], rest)
  | some (b :: l, rest) => (head? rest).map fun (ls, after) => (latin (b :: l) :: ls, after)
termination_by bs.length
decreasing_by exact length_lt_of_line? _h

/-- What follows the lines is shorter than the whole. -/
theorem length_lt_of_head? {bs : List UInt8} {ls : List String} {rest : List UInt8}
    (h : head? bs = some (ls, rest)) : rest.length < bs.length := by
  fun_induction head? bs generalizing ls rest with
  | case1 => simp at h
  | case2 bs rest' hl =>
    obtain ⟨_, rfl⟩ := Prod.mk.inj (Option.some.inj h)
    exact length_lt_of_line? hl
  | case3 bs b l rest' hl ih =>
    obtain ⟨⟨ls', after⟩, hr, heq⟩ := Option.map_eq_some_iff.1 h
    obtain ⟨_, rfl⟩ := Prod.mk.inj heq
    exact Nat.lt_trans (ih hr) (length_lt_of_line? hl)

def isBlank (c : Char) : Bool := c = ' ' || c = '\t'

/-- The text without blanks at its ends. -/
def stripped (cs : List Char) : String :=
  String.ofList ((cs.dropWhile isBlank).reverse.dropWhile isBlank).reverse

/-- The name and the value on a line. -/
def header? (line : String) : Option (String × String) :=
  let name := line.toList.takeWhile (· ≠ ':')
  match line.toList.drop name.length with
  | _ :: value => some (String.ofList name, stripped value)
  | [] => none

def status? (line : String) : Option Nat := do
  match line.splitOn " " with
  | version :: code :: _ =>
    if "HTTP/1.".isPrefixOf version ∧ code.length = 3 then code.toNat? else none
  | _ => none

/-- A body as far as it came. -/
inductive Body where
  | whole (bytes : List UInt8)
  /-- More is to come. -/
  | unfinished

def Body.after (bytes : List UInt8) : Body → Body
  | whole rest => whole (bytes ++ rest)
  | unfinished => unfinished

/-- The number at the beginning of the line before a chunk. -/
def chunkSize (line : List UInt8) : Nat :=
  (line.map Percent.hexValue?).takeWhile Option.isSome
    |>.foldl (fun n d => n * 16 + d.getD 0) 0

/-- A body in chunks, each behind its size; a chunk of nothing is the last one. -/
def chunks (bs : List UInt8) : Body :=
  match h : line? bs with
  | none => .unfinished
  | some (size, rest) =>
    let n := chunkSize size
    if n = 0 then .whole []
    else if rest.length < n + 2 then .unfinished
    else (chunks (rest.drop (n + 2))).after (rest.take n)
termination_by bs.length
decreasing_by
  have := length_lt_of_line? h
  simp only [List.length_drop]
  omega

/-- The body of an answer; `closed` says that nothing more will come. -/
def body (r : Response) (closed : Bool) (bs : List UInt8) : Body :=
  let lengthOf := (r.header? "content-length").bind String.toNat?
  if r.isBare then .whole []
  else if (r.header? "transfer-encoding").any fun v => v.map Char.toLower = "chunked" then chunks bs
  else match lengthOf with
    | some n => if n ≤ bs.length then .whole (bs.take n) else .unfinished
    | none => if closed then .whole bs else .unfinished

/-- An answer without its body, from the lines at its beginning. -/
def opening? (lines : List String) : Option Response := do
  let first ← lines.head?
  return ⟨← status? first, lines.tail.filterMap header?, []⟩

/-- The reply in the bytes that came so far; none while more are to come. -/
def read? (closed : Bool) (bs : List UInt8) : Option Reply :=
  match _h : head? bs with
  | none => if closed then some .dropped else none
  | some (lines, rest) =>
    match opening? lines with
    | none => some .dropped
    | some r =>
      if r.isInterim then read? closed rest
      else match body r closed rest with
        | .whole b => some (.ofResponse true { r with body := b })
        | .unfinished => if closed then some (.ofResponse false r) else none
termination_by bs.length
decreasing_by exact length_lt_of_head? _h

end Wire

end Harvesting
