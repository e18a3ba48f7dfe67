import Harvesting.Json.Printer
import Harvesting.Output.Sink
import Harvesting.Protocol.Request
import Harvesting.Store.Basic

/-!
# Notes

What was asked during a rehearsal, and what was answered.

* `Note`, `Note.text` — one of them, and its line;
* `Watched` — a store that notes what it is asked, and that can be told to refuse what is put.
-/

namespace Harvesting

/-- Something asked during a rehearsal. -/
inductive Note where
  | requested (second : Nat) (r : Request)
  | indexed (id : String) (answer : Except SinkFault Unit)
  | flushed (answer : Except SinkFault Unit)
  | closed (answer : Except SinkFault Unit)
  | got (slot : Slot) (answer : Except Store.Fault Unit)
  | stored (slot : Slot) (answer : Except Store.Fault Unit) (doc : Json)

namespace Note

/-- An answer in a word, or its fault. -/
def answerText {ε : Type} (wording : ε → String) : Except ε Unit → String
  | .ok () => "ok"
  | .error e => "error " ++ wording e

def text : Note → String
  | requested second r => toString second ++ " request " ++ r.text
  | indexed id a => "index " ++ id ++ " " ++ answerText SinkFault.message a
  | flushed a => "flush " ++ answerText SinkFault.message a
  | closed a => "close " ++ answerText SinkFault.message a
  | got slot a => "get " ++ slot.id ++ " " ++ answerText Store.Fault.message a
  | stored slot a doc =>
    "put " ++ slot.id ++ " " ++ answerText Store.Fault.message a ++ " " ++ doc.compact

end Note

/-- A store whose readings and writings are noted. -/
structure Watched (σ : Type) where
  store : σ
  /-- Whether the next writings are refused, in order; those beyond are not. -/
  refusals : List Bool
  /-- The notes, the last one first. -/
  notes : List Note

namespace Watched

variable {σ : Type} [Store σ]

def get (w : Watched σ) (key : String) (slot : Slot) : Store.Answer (Watched σ) (Option Json) :=
  match Store.get w.store key slot with
  | (a, s) => (a, { w with store := s, notes := .got slot (a.map fun _ => ()) :: w.notes })

/-- A writing that is refused changes nothing. -/
def put (w : Watched σ) (key : String) (slot : Slot) (doc : Json) : Store.Answer (Watched σ) Unit :=
  let (a, s) := match w.refusals with
    | true :: _ => (.error (.unavailable "injected save failure"), w.store)
    | _ => Store.put w.store key slot doc
  (a, ⟨s, w.refusals.tail, .stored slot a doc :: w.notes⟩)

def remove (w : Watched σ) (key : String) (slot : Slot) : Store.Answer (Watched σ) Bool :=
  match Store.remove w.store key slot with
  | (a, s) => (a, { w with store := s })

instance : Store (Watched σ) := ⟨get, put, remove⟩

end Watched

end Harvesting
