import Harvesting.Markup.Entity

/-!
# Tags

What stands inside a start tag: a name and attributes.

* `name`, `localName` — the name, and the name without the part before its first colon;
* `attribute?` — the unescaped value of the first attribute of a name. Attributes after it are not
  looked at; one before it that is malformed is a fault.

Positions in faults count bytes of the inside of the tag.
-/

namespace Harvesting.Markup.Tag

/-- The name of an element: what stands before the first blank. -/
def name (body : List Char) : List Char := body.takeWhile (!isSpace ·)

/-- The name without the part before its first colon. -/
def localName (name : List Char) : List Char :=
  match name.dropWhile (· ≠ ':') with
  | ':' :: r => r
  | _ => name

/-- The name in an end tag: blanks at its end do not count. -/
def closedName (body : List Char) : List Char :=
  let kept := (body.reverse.dropWhile isSpace).reverse
  if kept = [] then body else kept

def endsKey (c : Char) : Bool := c = '=' || isSpace c

/-- One attribute: its key, its value as it is written, and what follows it. -/
structure Attribute where
  key : List Char
  value : List Char
  rest : List Char

/--
The value after a key and a sign of equality. `position` is the byte at which a suffix of the tag
starts.
-/
def valueOf (position : List Char → Nat) (r : List Char) :
    Except Fault (List Char × List Char) :=
  match r.dropWhile isSpace with
  | [] => .error (.attributeValue (position []))
  | q :: v =>
    if q = '"' ∨ q = '\'' then
      match v.dropWhile (· ≠ q) with
      | _ :: rest => .ok (v.takeWhile (· ≠ q), rest)
      | [] => .error (.attributeQuote (position []) q)
    else .error (.attributeNotQuoted (position (q :: v)))

/-- The attribute whose key starts with `c`. A sign of equality may start a key. -/
def attributeFrom (position : List Char → Nat) (c : Char) (r : List Char) :
    Except Fault Attribute := do
  let key := c :: r.takeWhile (!endsKey ·)
  match (r.dropWhile (!endsKey ·)).dropWhile isSpace with
  | '=' :: r =>
    let (value, rest) ← valueOf position r
    return ⟨key, value, rest⟩
  | r => throw (.attributeKey (position r))

theorem valueOf_length {position : List Char → Nat} {r value rest : List Char}
    (h : valueOf position r = .ok (value, rest)) : rest.length < r.length := by
  unfold valueOf at h
  have hd := (List.dropWhile_sublist isSpace (l := r)).length_le
  split at h
  · cases h
  · next q v hq =>
    rw [hq] at hd
    split at h
    · have hv := (List.dropWhile_sublist (· ≠ q) (l := v)).length_le
      split at h
      · next heq =>
        rw [heq] at hv
        cases h
        simp at hd hv
        omega
      · cases h
    · cases h

theorem attributeFrom_length {position : List Char → Nat} {c : Char} {r : List Char} {a : Attribute}
    (h : attributeFrom position c r = .ok a) : a.rest.length < r.length := by
  unfold attributeFrom at h
  have h1 := (List.dropWhile_sublist (!endsKey ·) (l := r)).length_le
  have h2 := (List.dropWhile_sublist isSpace (l := r.dropWhile (!endsKey ·))).length_le
  simp only at h
  split at h
  · next r' heq =>
    rw [heq] at h2
    cases hv : valueOf position r' with
    | error e => simp [hv, bind, Except.bind] at h
    | ok p =>
      obtain ⟨value, rest⟩ := p
      simp only [hv, bind, Except.bind, pure, Except.pure, Except.ok.injEq] at h
      subst h
      have := valueOf_length hv
      simp at h2 ⊢
      omega
  · cases h

theorem rest_length_lt {position : List Char → Nat} {c : Char} {cs r : List Char} {a : Attribute}
    (hc : cs.dropWhile isSpace = c :: r) (h : attributeFrom position c r = .ok a) :
    a.rest.length < cs.length := by
  have h1 := (List.dropWhile_sublist isSpace (l := cs)).length_le
  have h2 := attributeFrom_length h
  rw [hc] at h1
  simp at h1
  omega

/-- The value, as it is written, of the first attribute named `key`. -/
def find? (position : List Char → Nat) (key : List Char) (cs : List Char) :
    Except Fault (Option (List Char)) :=
  match hc : cs.dropWhile isSpace with
  | [] => .ok none
  | c :: r =>
    match h : attributeFrom position c r with
    | .error e => .error e
    | .ok a =>
      have : a.rest.length < cs.length := rest_length_lt hc h
      if a.key = key then .ok (some a.value) else find? position key a.rest
termination_by cs.length

/-- The value of the first attribute named `key` of a tag. -/
def attribute? (key : String) (body : List Char) : Except Fault (Option (List Char)) := do
  let position (suffix : List Char) := Utf8.length body - Utf8.length suffix
  match ← find? position key.toList (body.dropWhile (!isSpace ·)) with
  | some value => return some (← unescape value)
  | none => return none

end Harvesting.Markup.Tag
