import Harvesting.Text.Decimal

/-!
# Spans of time

A non-negative length of time in seconds and nanoseconds.

* `Span` — the type; `Span.nanosTotal` — its length in nanoseconds;
* `Span.text` — its short text, in the largest unit of which it holds at least one: `90s`, `1.5s`,
  `250ms`, `3.2µs`, `7ns`.
-/

namespace Harvesting

/-- A length of time; `nanos` is below one second. -/
structure Span where
  secs : Nat
  nanos : Nat
  deriving Repr, DecidableEq, Inhabited

namespace Span

def zero : Span := ⟨0, 0⟩

def ofSecs (secs : Nat) : Span := ⟨secs, 0⟩

def isZero (s : Span) : Bool := s.secs = 0 && s.nanos = 0

def nanosTotal (s : Span) : Nat := s.secs * 1000000000 + s.nanos

def ofNanos (n : Nat) : Span := ⟨n / 1000000000, n % 1000000000⟩

/-- `whole` with the decimals of `part / 10 ^ places`, without zeros at the end. -/
def decimalText (whole part places : Nat) : String :=
  let ds := (Text.Decimal.padded places part).toList
  let kept := (ds.reverse.dropWhile (· = '0')).reverse
  toString whole ++ (if kept = [] then "" else "." ++ String.ofList kept)

/-- The span in the largest unit of which it holds at least one. -/
def text (s : Span) : String :=
  if 0 < s.secs then decimalText s.secs s.nanos 9 ++ "s"
  else if 1000000 ≤ s.nanos then decimalText (s.nanos / 1000000) (s.nanos % 1000000) 6 ++ "ms"
  else if 1000 ≤ s.nanos then decimalText (s.nanos / 1000) (s.nanos % 1000) 3 ++ "µs"
  else toString s.nanos ++ "ns"

end Span

end Harvesting
