import LightingDesk.Desk.Basic
import LightingDesk.Link.Heartbeat
import LightingDesk.Link.Inbox
import LightingDesk.Setup.Config

/-!
# Sessions

A session is a desk on a network, from the moment its configuration has been understood until the
operator quits or something fails.  Packets that can come from a controller tell where it is, and
the controller hears the mode whenever the desk asks for that.  What fails ends the session:
nothing that happens afterwards changes it.

    a session that has failed stays as it is                    (step_of_failure)
-/

namespace LightingDesk

/-- Why a session does not begin, or ends before the operator asks for it. -/
inductive SessionError
  | config (e : ConfigError)
  | noDaemon (reason : String)
  | output (e : SinkError)
  | scenes (e : SceneError)
  | noSocket
  | effect (e : StopError)
  | unsent
deriving DecidableEq, Repr

/-- The text shown for a session that does not begin or ends early. -/
def SessionError.message : SessionError → String
  | .config e => e.message
  | .noDaemon reason => reason
  | .output e => e.message
  | .scenes e => e.message
  | .noSocket => "the address to listen at is not available"
  | .effect e => e.message
  | .unsent => "a heartbeat could not be sent"

/-- What a session finds around it: the disk it works on, why the daemon at a port cannot be reached
if it cannot, the addresses it can listen at, and which of its datagrams can be sent. -/
structure Site where
  disk : Disk
  unreachable : UInt16 → Option String
  canListen : Address → Bool
  takes : Nat → Address → Bool

/-- A desk on a network. -/
structure Session (σ : Type) where
  desk : Desk σ
  heartbeat : Heartbeat
  inbox : Inbox
  failure : Option SessionError

/-- Something that happens to a session. -/
inductive Event
  | datagram (bytes : List UInt8) (sender : Ip)
  | status
  | wait (span : Nat)
deriving DecidableEq, Repr

namespace Session

variable {σ : Type} [Sink σ]

/-- The scenes that a configuration asks for. -/
def scenesOf (c : Config) (disk : Disk) : Except SessionError SceneStore :=
  match c.sceneFile with
  | some path => (SceneStore.load (SceneFile.fresh disk path)).mapError .scenes
  | none => .ok (SceneStore.inMemory [])

/-- Why an output cannot be reached, if it cannot. -/
def obstacle? (site : Site) : Output → Option String
  | .dummy => none
  | .daemon _ port => site.unreachable port

/-- Reaches an output and darkens it, so that it shows what is read back. -/
def darkened (site : Site) (output : Output) (sink : σ) : Except SessionError σ :=
  match obstacle? site output with
  | some reason => .error (.noDaemon reason)
  | none =>
    match Sink.clear sink .desk with
    | (dark, .ok ()) => .ok dark
    | (_, .error e) => .error (.output e)

/-- Starts what a configuration describes.  What it asks for is looked at in a fixed order, and
the first thing that cannot be had is the answer. -/
def start (c : Config) (site : Site) (sink : σ) (dice : Nat → Color) :
    Except SessionError (Session σ) := do
  let rig ← c.rig.mapError .config
  let sink ← darkened site c.output sink
  let scenes ← scenesOf c site.disk
  let delay ← c.startDelay.mapError .config
  let stopLimit ← c.stopLimit.mapError .config
  let home ← c.listensAt.mapError .config
  if !site.canListen home then throw .noSocket
  let everyone ← c.broadcastsTo.mapError .config
  let interval ← c.beatInterval.mapError .config
  let desk := Desk.start rig sink scenes delay stopLimit dice
  let heartbeat := Heartbeat.start everyone interval desk.controls.mode.code desk.now
    (Post.fresh site.takes)
  return ⟨desk, heartbeat, Inbox.empty c.queueRoom, if heartbeat.failed then some .unsent else none⟩

/-- Whether a packet of a kind can come from a controller. -/
def tellsController : PacketKind → Bool
  | .data => true
  | .pollReply => true
  | .poll => false

/-- Tells the controller the mode of the desk. -/
def announce (s : Session σ) : Session σ :=
  let out := s.heartbeat.beat s.desk.controls.mode.code s.desk.now
  { s with heartbeat := out.1, failure := if out.2 then s.failure else some .unsent }

/-- Hears from a controller, if that is who sends packets of such a kind. -/
def notice (s : Session σ) (r : Received) : Session σ :=
  if tellsController r.packet.kind then { s with heartbeat := s.heartbeat.observe r.sender } else s

/-- Hands a packet to the desk. -/
def handle (s : Session σ) (r : Received) : Session σ :=
  let heard := s.notice r
  let out := s.desk.handle r.packet
  let moved := { heard with desk := out.1 }
  match out.2 with
  | .ok true => moved.announce
  | .ok false => moved
  | .error e => { moved with failure := some (.effect e) }

/-- Takes the next packet out of the inbox. -/
def serve (s : Session σ) : Session σ :=
  let out := s.inbox.take
  match out.2 with
  | some r => handle { s with inbox := out.1 } r
  | none => s

/-- Receives a datagram and handles it. -/
def receive (s : Session σ) (bytes : List UInt8) (sender : Ip) : Session σ :=
  serve { s with inbox := (s.inbox.receive bytes sender).offer }

/-- Lets time pass. -/
def pass (s : Session σ) (span : Nat) : Session σ :=
  let heartbeat := s.heartbeat.wait (s.desk.now + span)
  { s with
    desk := s.desk.wait span
    heartbeat
    failure := if heartbeat.failed then some .unsent else s.failure }

/-- Lets something happen. -/
def step (s : Session σ) (e : Event) : Session σ :=
  match s.failure with
  | some _ => s
  | none =>
    match e with
    | .datagram bytes sender => s.receive bytes sender
    | .status => s
    | .wait span => s.pass span

/-- Lets things happen, one after the other. -/
def run (s : Session σ) (events : List Event) : Session σ := events.foldl step s

/-- Ends the session, and tells whether all went well. -/
def finish (s : Session σ) : Session σ × Except SessionError Unit :=
  let off := s.desk.shutdown
  ({ s with desk := off.1 },
    match s.failure with
    | some e => .error e
    | none => off.2.mapError .effect)

theorem step_of_failure {s : Session σ} {e : SessionError} (h : s.failure = some e)
    (event : Event) : s.step event = s := by
  unfold step
  rw [h]

end Session

end LightingDesk
