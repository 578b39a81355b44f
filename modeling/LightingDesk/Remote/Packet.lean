import LightingDesk.Remote.Action

/-!
# Packets

What the controller and the desk say to each other.  A data packet carries one of three
payloads: a user action, a joystick position or a gyroscope reading; a poll carries none;
the reply to a poll carries the controller's status.
-/

namespace LightingDesk

/-- What a packet is for. -/
inductive PacketKind
  | data
  | poll
  | pollReply
deriving DecidableEq, Repr

namespace PacketKind

/-- The byte that stands for the kind. -/
def code : PacketKind → UInt8
  | data => 0x33
  | poll => 0x87
  | pollReply => 0x1e

/-- The kind that a byte stands for. -/
def ofCode? (n : UInt8) : Option PacketKind := [data, poll, pollReply].find? (·.code == n)

end PacketKind

/-- What the controller says about itself: the bits of its battery voltage, an error code and a
message. -/
structure Status where
  battery : UInt32
  errorCode : UInt8
  message : String
deriving DecidableEq, Repr

/-- What a packet carries. -/
inductive Payload
  | userAction (code : UInt8)
  | joystick (x y : Int32)
  | gyro (x y z : Int8)
  | status (status : Status)
  | empty
deriving DecidableEq, Repr

/-- A packet: its kind, the mode its sender believes the desk is in, and what it carries. -/
structure Packet where
  kind : PacketKind
  mode : UInt8
  payload : Payload
deriving DecidableEq, Repr

namespace Packet

/-- A data packet with a user action. -/
def ofAction (action : Action) (mode : UInt8) : Packet := ⟨.data, mode, .userAction action.code⟩

/-- The known action that the packet carries. -/
def action? (c : Packet) : Option Action :=
  match c.payload with
  | .userAction code => Action.ofCode? code
  | _ => none

/-- A byte as two hexadecimal digits. -/
def hexByte (b : UInt8) : String :=
  String.ofList [Nat.digitChar (b.toNat / 16), Nat.digitChar (b.toNat % 16)]

/-- What the packet carries, in words; a status speaks for itself. -/
def describe (c : Packet) : String :=
  match c.payload with
  | .userAction code =>
    match Action.ofCode? code with
    | some action => action.title
    | none => s!"UserAction(0x{hexByte code})"
  | .joystick x y => s!"Joystick \x7b x: {x.toInt}, y: {y.toInt} \x7d"
  | .gyro x y z => s!"Gyro \x7b x: {x.toInt}, y: {y.toInt}, z: {z.toInt} \x7d"
  | .status s => s.message
  | .empty => "Empty"

end Packet

/-- How much a gyroscope reading adds up to, on the scale of the motion tables. -/
def gyroMagnitude (x y z : Int8) : Nat :=
  (x.toInt.natAbs + y.toInt.natAbs + z.toInt.natAbs) * 8

end LightingDesk
