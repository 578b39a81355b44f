import LightingDesk.Cli.Outcome
import LightingDesk.Operator.Terminal
import Std.Async.Timer
import Std.Async.UDP

/-!
# The program

Reads files, variables and the terminal, sends and receives datagrams, and looks at the clock.
What all of this means is decided elsewhere: the desk is a `Session`, and any other command line
has an `Outcome`.
-/

namespace LightingDesk.Program

open Std.Net (SocketAddress)
open Std.Async (Async Selectable Selector)
open Std.Async.UDP (Socket)

/-! ## Files and variables -/

/-- A disk with what stands at a path, if anything does. -/
def addPath (disk : Disk) (path : String) : IO Disk := do
  try
    let bytes ← IO.FS.readBinFile path
    return (disk.put path (Text.Utf8.decodeLossy bytes.toList)).getD disk
  catch
    | .noFileOrDirectory _ _ _ => return disk
    | _ => return disk.addFolder path

/-- A disk with what stands at a path and on the way there. -/
def addWay (disk : Disk) (path : String) : IO Disk := do
  let parts := Disk.parts path
  (List.range parts.length).foldlM
    (fun disk n => addPath disk ("/".intercalate (parts.take (n + 1)))) disk

/-- A disk with nothing but the folder that the program works in. -/
def emptyDisk : IO Disk := do
  let home := (← IO.currentDir).toString
  return Disk.empty ((Disk.parts home).filter (· ≠ ""))

/-- The files that the path of a configuration can mean. -/
def configDisk (path : String) : IO Disk := do
  let disk ← emptyDisk
  let whole := Settings.fromRoot disk.home path
  (whole :: (Settings.extended whole).map (·.1)).foldlM addWay disk

/-- The variables that are settings. -/
def environment : IO (List (String × String)) := do
  let found ← Config.keys.mapM fun key => do
    let name := s!"LIGHTDECK_{key.toUpper}"
    return (← IO.getEnv name).map fun value => (name, value)
  return found.filterMap id

/-! ## Datagrams -/

/-- An address as the network takes it. -/
def socketAddress (a : Address) : SocketAddress :=
  match a.ip with
  | .v4 p q r s => .v4 ⟨⟨#v[p, q, r, s]⟩, a.port⟩
  | .v6 groups => .v6 ⟨⟨groups⟩, a.port⟩

/-- Where a datagram has come from. -/
def ipOf : SocketAddress → Ip
  | .v4 a => .v4 a.addr.octets[0] a.addr.octets[1] a.addr.octets[2] a.addr.octets[3]
  | .v6 a => .v6 a.addr.segments

/-- Opens a socket at an address, unless it is not available. -/
def openSocket (home : Address) : IO (Option Socket) := do
  try
    let socket ← Socket.mk
    socket.bind (socketAddress home)
    socket.setBroadcast true
    return some socket
  catch _ => return none

/-- Sends a datagram, and whether it went out. -/
def trySend (socket : Socket) (target : Address) (bytes : List UInt8) : IO Bool := do
  try
    (socket.send ⟨bytes.toArray⟩ (some (socketAddress target))).block
    return true
  catch _ => return false

/-- Waits a moment for a datagram. -/
def receive? (socket : Socket) : IO (Option (List UInt8 × Ip)) := do
  try
    let wait : Async (Option (ByteArray × Option SocketAddress)) := do
      Selectable.one #[
        .case (socket.recvSelector (UInt64.ofNat maxDatagram)) fun found => pure (some found),
        .case (← Selector.sleep 10) fun _ => pure none]
    match ← wait.block with
    | some (bytes, some sender) => return some (bytes.toList, ipOf sender)
    | _ => return none
  catch _ => return none

/-- Finds out which datagrams of a session can be sent, by sending them one after the other.
`known` says it of the first ones; each of the others is taken to succeed until it is tried. -/
partial def settle (socket : Socket) (act : (Nat → Bool) → Session Frame) (known : List Bool) :
    IO (Session Frame) := do
  let s := act fun n => known.getD n true
  let post := s.heartbeat.post
  match post.sent.reverse[known.count true]? with
  | some d =>
    if known.length < post.attempts then
      settle socket act (known ++ [← trySend socket d.target d.bytes])
    else return s
  | none => return s

/-- A session whose next datagrams are decided by `takes`. -/
def withPost (s : Session Frame) (takes : Nat → Bool) : Session Frame :=
  { s with heartbeat := { s.heartbeat with post := Post.fresh fun n _ => takes n } }

/-- Lets something happen to a session. -/
def happen (socket : Socket) (s : Session Frame) (event : Event) : IO (Session Frame) :=
  settle socket (fun takes => (withPost s takes).step event) []

/-! ## The terminal -/

/-- Reads requests from the terminal until it is closed. -/
partial def listen (requests : IO.Ref (List Request)) : IO Unit := do
  let output ← IO.getStdout
  output.putStr Terminal.prompt
  output.flush
  let line ← (← IO.getStdin).getLine
  if line.isEmpty then return
  let typed := Terminal.read true (Text.Utf8.encode line)
  requests.modify (· ++ typed.requests)
  for word in typed.unrecognized do
    IO.eprintln s!"Unrecognized command: {word}"
  if typed.requests.contains .quit then return
  listen requests

/-! ## The desk -/

/-- Writes the scenes of a session to their file, if they have changed. -/
def keepScenes (path : Option String) (before after : Session Frame) : IO Unit := do
  let text (s : Session Frame) : Option Found :=
    s.desk.scenes.file.map fun file => file.disk.find file.path
  match path, text before, text after with
  | some path, old, some (.text contents) =>
    if old ≠ some (.text contents) then
      try IO.FS.writeFile path contents
      catch e => IO.eprintln s!"The scenes have not been saved: {e}"
  | _, _, _ => return

/-- What an operator is told about a desk. -/
def statusLine (d : Desk Frame) : String :=
  let c := d.controls
  let light := (d.rig[c.cursor]?.map (·.name)).getD "none"
  s!"mode {c.mode.code}, light {light}, scenes {d.scenes.ring.count}"

/-- Lets a session go on until it ends. -/
partial def run (socket : Socket) (scenePath : Option String) (requests : IO.Ref (List Request))
    (s : Session Frame) (last : Nat) : IO (Session Frame) := do
  if s.failure.isSome then return s
  let asked ← requests.modifyGet fun l => (l, [])
  if asked.contains .status then IO.eprintln (statusLine s.desk)
  if asked.contains .quit then return s
  let found ← receive? socket
  let now ← IO.monoNanosNow
  let waited ← happen socket s (.wait (now - last))
  let next ← match found with
    | some (bytes, sender) => happen socket waited (.datagram bytes sender)
    | none => pure waited
  keepScenes scenePath s next
  run socket scenePath requests next now

/-- Why the daemon for an output cannot be reached. -/
def noDaemon (port : UInt16) : Option String := s!"no daemon answers at port {port}"

/-- Runs the desk that a configuration describes. -/
def runDesk (c : Config) : IO Cli.Outcome := do
  let disk ← emptyDisk
  let disk ← match c.sceneFile with
    | some path => addWay disk path
    | none => pure disk
  let socket ← match c.listensAt with
    | .ok home => openSocket home
    | .error _ => pure none
  let opening (takes : Nat → Bool) : Except SessionError (Session Frame) :=
    Session.start c ⟨disk, noDaemon, fun _ => socket.isSome, fun n _ => takes n⟩ Frame.dark
      fun n => Color.ofHsv (Float.ofNat (n * 137 % 360)) 1 1
  match opening fun _ => true, socket with
  | .error e, _ => return .failed e.message
  | .ok _, none => return .failed SessionError.noSocket.message
  | .ok s, some socket =>
    let requests ← IO.mkRef ([] : List Request)
    let _ ← IO.asTask (listen requests) .dedicated
    let started ← settle socket (fun takes => (opening takes).toOption.getD s) []
    let ended ← run socket c.sceneFile requests started (← IO.monoNanosNow)
    return Cli.endDesk ended

/-- Does what an invocation asks for. -/
def perform (i : Cli.Invocation) : IO Cli.Outcome := do
  let settings ← environment
  match i with
  | .start path =>
    match Config.load (← configDisk path) path settings with
    | .error e => return .failed e.message
    | .ok c => runDesk c
  | .fixtures path asYaml =>
    let site : Site := ⟨← configDisk path, noDaemon, fun _ => false, fun _ _ => false⟩
    return Cli.listFixtures site settings path asYaml
  | i =>
    let site : Site := ⟨.empty [], noDaemon, fun _ => false, fun _ _ => true⟩
    let o := Cli.outcome site settings [] i
    match o.datagram with
    | none => return o
    | some (target, bytes) =>
      let home : Address := match target.ip with
        | .v4 _ _ _ _ => ⟨.v4 0 0 0 0, 0, 0⟩
        | .v6 _ => ⟨.v6 (Vector.replicate 8 0), 0, 0⟩
      match ← openSocket home with
      | some socket =>
        if ← trySend socket target bytes then return o
        else return .failed s!"{target.text} cannot be reached"
      | none => return .failed SessionError.noSocket.message

end LightingDesk.Program

/-- Runs the program with the words of its command line. -/
def main (words : List String) : IO UInt32 := do
  let o ← LightingDesk.Program.perform (LightingDesk.Cli.Invocation.ofWords words)
  IO.print o.output
  for line in o.complaint do
    IO.eprintln line
  return o.code.toUInt32
