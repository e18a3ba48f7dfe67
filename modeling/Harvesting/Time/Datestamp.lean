import Harvesting.Time.Stamp

/-!
# Datestamps

The date and time notation of the harvesting protocol. A repository uses one of two granularities,
days (`2020-01-31`) or seconds (`2020-01-31T10:00:00Z`); both are read, and seconds are written.

* `Datestamp.parse` — a text as an instant without a fraction, or the fault with the text that was
  refused;
* `Datestamp.format` — an instant in seconds.
-/

namespace Harvesting.Datestamp

/-- A text that is no datestamp, without the blanks around it. -/
structure Fault where
  value : String
  deriving Repr, DecidableEq

def Fault.message (f : Fault) : String :=
  "Invalid datestamp '" ++ f.value ++ "': expected YYYY-MM-DD or YYYY-MM-DDThh:mm:ssZ"

/-- The instant in seconds, as universal time. -/
def format (t : Instant) : String := Stamp.secondsText t

/--
The instant that a datestamp names. Blanks around it do not matter, any offset is converted to
universal time, a fraction of a second is dropped, and a date alone is its midnight.
-/
def parse (raw : String) : Except Fault Instant :=
  let cs := Text.trim raw.toList
  match Stamp.strict cs with
  | .ok t => .ok t.truncate
  | .error _ =>
    match Stamp.calendarDay cs with
    | .ok d => .ok (Instant.ofDays d.toDays)
    | .error _ => .error ⟨String.ofList cs⟩

/-- The text of an open or closed bound, `absent` standing for an absent one. -/
def boundText (absent : String) : Option Instant → String
  | some t => format t
  | none => absent

end Harvesting.Datestamp
