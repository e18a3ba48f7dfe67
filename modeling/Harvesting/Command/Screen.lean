import Harvesting.Command.Overview
import Harvesting.Text.Paint

/-!
# What commands print

* `Screen.plan` — the next decision of every source, a line each;
* `Screen.status` — how far every source got, a paragraph each;
* `Screen.reset` — whether there was a checkpoint to remove;
* `Screen.wantsColours` — whether there are colours, which each of them takes.
-/

namespace Harvesting.Screen

/-- Whether there are colours: variables insist on them or forbid them, else a terminal has them. -/
def wantsColours (e : Environment) (terminal : Bool) : Bool :=
  let isOn (name : String) : Option Bool := (e.get? name).map (· ≠ "0")
  if isOn "CLICOLOR_FORCE" = some true then true
  else if (isOn "NO_COLOR").isSome then false
  else (isOn "CLICOLOR").getD true && terminal

def plain (colours : Bool) (c : Paint.Colour) : String → String := Paint.apply colours ⟨c, false⟩

def bold (colours : Bool) (c : Paint.Colour) : String → String := Paint.apply colours ⟨c, true⟩

/-- The lines of a text, each ended. -/
def lines (ls : List String) : String := String.join (ls.map (· ++ "\n"))

/-- The next decision of a source. -/
def planLine (colours : Bool) (key : String) (d : Decision) : String :=
  bold colours .cyan key ++ "  " ++ plain colours (if d.isWait then .yellow else .green) d.text

/-- The next decision of every source. -/
def plan (colours : Bool) (ds : List (String × Decision)) : String :=
  lines (ds.map fun d => planLine colours d.1 d.2)

/-- A bound, or a stroke. -/
def bound : Option Instant → String := Datestamp.boundText "-"

def checkpointLines (colours : Bool) : Option Checkpoint → List String
  | none => ["  Checkpoint: " ++ plain colours .yellow "never harvested"]
  | some c =>
    let health := if c.isClean then plain colours .green "ok" else plain colours .red "failed"
    ["  Checkpoint: " ++ health,
      "  Window:     [" ++ bound c.lower ++ ", " ++ bound c.upper ++ "]",
      "  Status:     " ++ toString c.status] ++
    (c.token.map fun t => "  Token:      " ++ t).toList ++
    (c.error.map fun e => "  Error:      " ++ plain colours .red e).toList

def statusLines (colours : Bool) (s : Overview.Status) : List String :=
  [bold colours .cyan s.key] ++ checkpointLines colours s.checkpoint ++
  ["  Cycles:     " ++ toString s.tally.cycles,
    "  Records:    " ++ toString s.tally.counter,
    "  Started:    " ++ bound s.tally.started,
    "  Last run:   " ++ bound s.tally.timestamp] ++
  (if s.tally.active then ["  " ++ plain colours .yellow "Cycle in progress (or interrupted)"] else []) ++
  [""]

def status (colours : Bool) (ss : List Overview.Status) : String :=
  lines (ss.flatMap (statusLines colours))

/-- Whether there was a checkpoint to remove. -/
def reset (colours : Bool) (key : String) (existed : Bool) : String :=
  lines [if existed then bold colours .green "Reset" ++ " " ++ key
    else plain colours .yellow "Unchanged" ++ " " ++ key ++ " (no checkpoint)"]

end Harvesting.Screen
