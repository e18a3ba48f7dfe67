import Harvesting.Command.Invocation
import Harvesting.Command.Reach
import Harvesting.Web.Dialogue
import Harvesting.Web.Wire
import Std.Async.DNS
import Std.Async.Signal
import Std.Async.TCP
import Std.Async.Timer
import Std.Internal.UV.System

/-!
# The program

What the library leaves open is filled in here: the words and the variables, the clock, the files, and
connections to servers. Nothing is decided here; each part asks the library and does what it says.

* `Surroundings` — environment, clock and machine;
* `Files` — the disk in so far as a run may look at it, before a run and after it;
* `Connection` — calls of web servers;
* `Harvest` — sources run side by side, each against its repository, its sink and its store.
-/

namespace Harvesting

open Std.Async

/-! ### Surroundings -/

namespace Surroundings

def environment : IO Environment := do
  return ⟨(← Std.Internal.UV.System.osEnviron).toList⟩

def now : IO Instant := do
  let n := (← Std.Time.Timestamp.now).toNanosecondsSinceUnixEpoch.val
  return ⟨n / 1000000000, (n % 1000000000).toNat⟩

/-- What a command finds, on a disk of which nothing is known. -/
def machine (e : Environment) : IO Machine := do
  let terminal ← (← IO.getStdout).isTty
  let processors ← Std.Internal.UV.System.cpuInfo
  return ⟨.folder [], toString (← IO.currentDir), ← now, Screen.wantsColours e terminal,
    processors.size⟩

end Surroundings

/-! ### Files -/

namespace Files

def text (p : Disk.Path) : String := "/" ++ String.intercalate "/" p

/-- What is at a path, without what a folder holds. -/
def probe (p : Disk.Path) : IO (Option Disk.Node) := do
  try return some (.file (← IO.FS.readBinFile (text p)).toList)
  catch
    | .inappropriateType .. => return some (.folder [])
    | .noFileOrDirectory .. => return none
    | .invalidArgument .. => return none
    | e => throw e

/-- Adds to a disk what is at a path or in its way. -/
def lookAt (disk : Disk.Node) (p : Disk.Path) : IO Disk.Node := do
  for n in List.range p.length do
    match ← probe (p.take (n + 1)) with
    | some (.file b) =>
      let (_, disk) := Disk.makeFolders disk (p.take n)
      return (Disk.write disk (p.take (n + 1)) b).toOption.getD disk
    | some (.folder _) => continue
    | none => return (Disk.makeFolders disk (p.take n)).2
  return (Disk.makeFolders disk p).2

def look (paths : List Disk.Path) : IO Disk.Node := paths.foldlM lookAt (.folder [])

/-- Puts a file at a path, where others see the old one or the new one and never a part. -/
def put (p : Disk.Path) (b : Disk.Bytes) : IO Unit := do
  IO.FS.createDirAll (text p.dropLast)
  IO.FS.writeBinFile (text p ++ "~") ⟨b.toArray⟩
  IO.FS.rename (text p ++ "~") (text p)

/-- Brings the disk from one state to another, in so far as they differ at some paths. -/
def settle (before after : Disk.Node) (paths : List Disk.Path) : IO Unit :=
  paths.forM fun p =>
    match Disk.at? before p, Disk.at? after p with
    | .ok (.file b), .ok (.file c) => if b = c then return () else put p c
    | _, .ok (.file c) => put p c
    | .ok (.file _), .error _ => IO.FS.removeFile (text p)
    | .error _, .ok (.folder _) => IO.FS.createDirAll (text p)
    | _, _ => return ()

end Files

/-! ### Calls -/

namespace Connection

open Std.Net

/-- The internet addresses of a host. -/
def resolve (a : Address) : Async (List IPAddr) := do
  let name := match a.host with
    | some (.ipv6 pieces) => Host.ipv6Text pieces
    | some h => h.text
    | none => ""
  return (← DNS.getAddrInfo name "").toList

/-- A connection to the first address that accepts one. -/
def connect (port : UInt16) : List IPAddr → Async TCP.Socket.Client
  | [] => throw (IO.userError "no address")
  | a :: rest => do
    let socket ← TCP.Socket.Client.mk
    let target : SocketAddress := match a with
      | .v4 addr => .v4 ⟨addr, port⟩
      | .v6 addr => .v6 ⟨addr, port⟩
    try
      socket.connect target
      return socket
    catch e => if rest.isEmpty then throw e else connect port rest

/-- The most bytes taken in at once. -/
def stride : UInt64 := 65536

/-- Takes in bytes up to the end of the answer. -/
partial def receive (socket : TCP.Socket.Client) (got : ByteArray) : Async Reply := do
  match ← socket.recv? stride with
  | none => return (Wire.read? true got.toList).getD .dropped
  | some more =>
    let got := got ++ more
    match Wire.read? false got.toList with
    | some r => return r
    | none => receive socket got

/-- Makes a call of a server and takes in the answer. -/
def converse (server : Address) (c : Call) : Async Reply := do
  let port := (server.port <|> Address.usualPort? server.scheme).getD 80
  let socket ← connect port.toUInt16 (← resolve server)
  socket.send ⟨c.message.toArray⟩
  receive socket .empty

/-- No answer, after a time. -/
def silence (limit : Span) : Async Reply := do
  sleep (.ofNat (limit.nanosTotal / 1000000))
  return .silent

/-- The reply to a call of a server within a time. A broken connection is a reply too. -/
def send (limit : Span) (server : Address) (c : Call) : IO Reply := do
  if server.scheme ≠ "http" then return .dropped
  try (Async.race (converse server c) (silence limit)).block
  catch _ => return .dropped

end Connection

/-! ### The harvest -/

namespace Harvest

/-- What a source runs against. -/
structure Side where
  client : Client
  store : IO.Ref Backend
  outlet : IO.Ref Outlet
  /-- Set when the harvest is cancelled. -/
  stop : IO.CancelToken

/-- Asks the store. One on disk is looked at before, and the disk follows it after. -/
def consult {α : Type} (s : Side) (key : String) (f : Backend → Store.Answer Backend α) :
    IO (Except Store.Fault α) := do
  match ← s.store.get with
  | .memory m =>
    let (answer, b) := f (.memory m)
    s.store.set b
    return answer
  | .archive a =>
    try
      let paths := Reach.ofKey a key
      let disk ← Files.look paths
      let (answer, b) := f (.archive { a with disk := disk })
      Files.settle disk (b.diskAfter disk) paths
      return answer
    catch e => return .error (.io (toString e))

/-- Asks the sink. A document or the end of a cycle makes one call at most. -/
def hand (s : Side) (f : Outlet → Dialogue → Outlet.Result Dialogue) :
    IO (Except SinkFault Unit) := do
  let outlet ← s.outlet.get
  let limit := match outlet with
    | .bulk d => d.batcher.timeout
    | .shelf _ => .zero
  let (answer, outlet) ← Dialogue.settle (fun c => Connection.send limit c.address c)
    (fun d =>
      let (answer, o, d) := f outlet d
      ((answer, o), d)) [] 1
  s.outlet.set outlet
  return answer

def fetch (s : Side) (r : Request) (limit : Span) : IO (Except SourceFault Page) := do
  match s.client.call r with
  | .error e => return .error e
  | .ok c =>
    let reply ← Connection.send limit (s.client.server c) c
    return s.client.page c (← Surroundings.now) reply

/-- The longest time in which a cancelled harvest goes unnoticed, in thousandths of a second. -/
def heartbeat : Nat := 100

/-- Waits up to a time, unless the harvest is cancelled; whether the time passed in full. -/
partial def pauseUntil (s : Side) (time : Nat) : IO Bool := do
  if ← s.stop.isSet then return false
  let t ← IO.monoMsNow
  if time ≤ t then return true
  IO.sleep (min heartbeat (time - t)).toUInt32
  pauseUntil s time

def answer (s : Side) : (e : Effect) → IO e.Reply
  | .cancelled => s.stop.isSet
  | .pause length => do pauseUntil s ((← IO.monoMsNow) + length.nanosTotal / 1000000)
  | .clock => Surroundings.now
  | .wallClock => Surroundings.now
  | .load key => consult s key fun b => Store.load b key
  | .save key c => consult s key fun b => Store.save b key c
  | .loadTally key => consult s key fun b => Store.loadTally b key
  | .saveTally key t => consult s key fun b => Store.saveTally b key t
  | .request r limit => fetch s r limit
  | .index d => hand s fun o w => o.index Dialogue.answer w d
  | .flush => hand s fun o w => o.flush Dialogue.answer w
  | .close => hand s fun o w => o.close Dialogue.answer w

partial def follow {σ : Type} (s : Side) (c : Course σ) (stage : σ) : IO σ := do
  match c stage with
  | none => return stage
  | some p => follow s c (← p.runIn (answer s))

/-- Runs a source; its sums, if it comes to its end. -/
def runSource (stop : IO.CancelToken) (b : Backend) (d : Deployment) : IO (Option Summary) := do
  let s : Side := ⟨d.client, ← IO.mkRef b, ← IO.mkRef d.outlet, stop⟩
  match ← follow s (Runner.course d.runner) (Runner.start d.runner) with
  | (.stopped, sum) => return some sum
  | _ => return none

def cancelOnInterrupt (stop : IO.CancelToken) : IO Unit := do
  let interrupt ← (← Signal.Waiter.mk .sigint false).wait
  let _ ← IO.mapTask (fun _ => stop.set) interrupt

/-- Runs sources side by side; the sums of those that come to their ends. -/
def run (b : Backend) (ds : List Deployment) : IO (List Summary) := do
  let stop ← IO.CancelToken.new
  cancelOnInterrupt stop
  let tasks ← ds.mapM fun d => IO.asTask (runSource stop b d) Task.Priority.dedicated
  let results ← tasks.mapM fun t => IO.wait t
  return results.filterMap fun r => r.toOption.bind id

end Harvest

/-- Prints what a run ends with; the number for the system. -/
def Ending.tell (e : Ending) : IO UInt32 := do
  IO.eprint e.complaints
  IO.print e.output
  return e.exit.toUInt32

def perform (words : List String) : IO UInt32 := do
  let e ← Surroundings.environment
  let m ← Surroundings.machine e
  let settings := Reach.ofSettings m.cwd e words
  let m := { m with disk := ← Files.look settings }
  let paths := Reach.ofRun m e words
  let m := { m with disk := ← Files.look (settings ++ paths) }
  match Opening.of m e words with
  | .ended ending disk =>
    Files.settle m.disk disk paths
    ending.tell
  | .harvest once complaints ds b =>
    IO.eprint complaints
    let sums ← Harvest.run b ds
    (Opening.afterHarvest once "" sums).tell

end Harvesting

def main (words : List String) : IO UInt32 := do
  try Harvesting.perform words
  catch e =>
    IO.eprintln s!"Error: {e}"
    return 1
