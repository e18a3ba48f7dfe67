import Harvesting.Settings.Log
import Harvesting.Text.Blank
import Harvesting.Text.Decimal

/-!
# Filter directives

A directive says how much is logged of the targets whose names start in some way: `http=warn`. A
directive may also speak of spans, in brackets, and of their fields, in braces inside of them; such ones
are read and have no say on what is logged outside of any span.

* `Directive` — one of them; `Directive.parse` — its reading;
* `DirectiveFault` — why a text is none.
-/

namespace Harvesting.Log

/-- Why a text is no directive. -/
inductive DirectiveFault where
  /-- The level is none. -/
  | level
  | form
  deriving Repr, DecidableEq

def DirectiveFault.message : DirectiveFault → String
  | level => "error parsing level filter: expected one of \"off\", \"error\", \"warn\", \"info\", " ++
      "\"debug\", \"trace\", or a number 0-5"
  | form => "invalid filter directive"

/-- How much is logged: so many levels, the most urgent ones first. -/
abbrev Volume := Nat

def volumes : List (String × Volume) :=
  [("off", 0), ("error", 1), ("warn", 2), ("info", 3), ("debug", 4), ("trace", 5)]

/-- The volume that a text names, by a number or in any letter case. -/
def volume? (cs : List Char) : Option Volume :=
  match Text.Decimal.unsigned? 6 (String.ofList cs) with
  | some n => some n
  | none => volumes.lookup (Tree.lower (String.ofList cs))

def loudest : Volume := 5

/-- How much is logged of some targets. -/
structure Directive where
  /-- What the names of the targets start with; none stands for all targets. -/
  target : Option (List Char)
  /-- The directive asks for a span or for fields. -/
  spanned : Bool
  volume : Volume
  deriving Repr, DecidableEq

namespace Directive

def ofVolume (v : Volume) : Directive := ⟨none, false, v⟩

/-- A character with which the name of a target may start. -/
def startsTarget (c : Char) : Bool :=
  c.isAlphanum || c = '-' || c = ':' || c = '_' || 0x80 ≤ c.toNat

/-- The part after the sign of equality; without a level it is the loudest. -/
def volumeAfter (cs : List Char) : Except DirectiveFault Volume :=
  if cs = [] then .ok loudest
  else match volume? cs with
    | some v => .ok v
    | none => .error .level

/-- The fields in braces, of which there is one at least; what follows them and their bracket. -/
def afterFields (cs : List Char) : Except DirectiveFault (List Char) :=
  let fields := cs.takeWhile (· ≠ '}')
  if fields = [] then .error .form
  else match cs.dropWhile (· ≠ '}') with
    | _ :: ']' :: r => .ok r
    | _ => .error .form

/-- The span in brackets; what follows the closing bracket. -/
def afterSpan (cs : List Char) : Except DirectiveFault (List Char) :=
  match cs.dropWhile fun c => c ≠ ']' ∧ c ≠ '{' with
  | ']' :: r => .ok r
  | '{' :: r => afterFields r
  | _ => .error .form

def withSpan (target : Option (List Char)) (cs : List Char) : Except DirectiveFault Directive := do
  match ← afterSpan cs with
  | [] => return ⟨target, true, loudest⟩
  | '=' :: level => return ⟨target, true, ← volumeAfter level⟩
  | _ => throw .form

/-- The directive of a text: a level, a target, or a target with a level. -/
def parse (cs : List Char) : Except DirectiveFault Directive :=
  let name := cs.takeWhile fun c => c ≠ '=' ∧ c ≠ '['
  match cs, cs.drop name.length with
  | '[' :: r, _ => withSpan none r
  | c :: _, rest =>
    if ¬ startsTarget c then .error .form
    else match rest with
      | '=' :: level => do return ⟨some name, false, ← volumeAfter level⟩
      | '[' :: r => withSpan (some name) r
      | _ => .ok (match volume? name with
          | some v => ofVolume v
          | none => ⟨some name, false, loudest⟩)
  | [], _ => .error .form

end Directive

end Harvesting.Log
