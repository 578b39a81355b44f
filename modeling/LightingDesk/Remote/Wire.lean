import LightingDesk.Remote.Packet
import LightingDesk.Text.Utf8

/-!
# The wire format

Every datagram starts with eight fixed bytes, the packet's kind and a mode.  A data packet
then names its payload; unused bytes keep the numbers where the controller expects them.

    offset  0        8     9     10        11       12      14        16
    action  magic    kind  mode  0x13      code
    stick   magic    kind  mode  0x23      0        x (four bytes)    y (four bytes)
    gyro    magic    kind  mode  0x33      0        0  0    x  y      z
    status  magic    kind  mode  battery (four bytes)       error, length, message

Reading checks the length of a datagram before each part of it that it looks at, so that a
short datagram says how many bytes the next part would have needed.
-/

namespace LightingDesk

/-- The bytes that every datagram starts with. -/
def magic : List UInt8 := [0x4a, 0x45, 0x10, 0x4d, 0x4b, 0x03, 0x43, 0x4b]

/-- The most bytes of a datagram that are received. -/
def maxDatagram : Nat := 1024

/-- Why a datagram is not a packet. -/
inductive DecodeError
  | truncated (needed length : Nat)
  | badMagic
  | unknownKind (code : UInt8)
  | unknownVariant (code : UInt8)
deriving DecidableEq, Repr

/-- The text shown for a datagram that is not a packet. -/
def DecodeError.message : DecodeError → String
  | .truncated needed length => s!"datagram truncated: needed {needed} bytes, got {length}"
  | .badMagic => "bad magic identifier"
  | .unknownKind code => s!"unknown packet kind 0x{Packet.hexByte code}"
  | .unknownVariant code => s!"unknown data variant 0x{Packet.hexByte code}"

namespace Wire

/-- A number below 2^32 as four bytes, the lowest first. -/
def bytes4 (n : Nat) : List UInt8 :=
  [n.toUInt8, (n / 256).toUInt8, (n / 65536).toUInt8, (n / 16777216).toUInt8]

/-- The bytes of a payload, after the mode. -/
def payloadBytes : Payload → List UInt8
  | .userAction code => [0x13, code]
  | .joystick x y => [0x23, 0] ++ bytes4 x.toUInt32.toNat ++ bytes4 y.toUInt32.toNat
  | .gyro x y z => [0x33, 0, 0, 0, x.toUInt8, y.toUInt8, z.toUInt8]
  | .status s =>
    let message := (Text.Utf8.encode s.message).take 255
    bytes4 s.battery.toNat ++ [s.errorCode, message.length.toUInt8] ++ message
  | .empty => []

/-- The datagram of a packet.  A message is cut after 255 bytes. -/
def encode (c : Packet) : List UInt8 := magic ++ [c.kind.code, c.mode] ++ payloadBytes c.payload

/-- The datagram that tells the controller the desk's mode: a poll without payload. -/
def heartbeat (mode : UInt8) : List UInt8 := magic ++ [PacketKind.poll.code, mode]

/-- The byte at an offset that has been checked. -/
def byteAt (b : List UInt8) (i : Nat) : UInt8 := b.getD i 0

/-- The number in the four bytes at an offset. -/
def number4 (b : List UInt8) (i : Nat) : Nat :=
  (byteAt b i).toNat + 256 * (byteAt b (i + 1)).toNat + 65536 * (byteAt b (i + 2)).toNat +
    16777216 * (byteAt b (i + 3)).toNat

/-- Refuses a datagram of fewer than `needed` bytes. -/
def need (b : List UInt8) (needed : Nat) : Except DecodeError Unit :=
  if b.length < needed then .error (.truncated needed b.length) else .ok ()

/-- The payload of a data packet. -/
def decodeData (b : List UInt8) : Except DecodeError Payload := do
  need b 11
  match byteAt b 10 with
  | 0x13 =>
    need b 12
    return .userAction (byteAt b 11)
  | 0x23 =>
    need b 20
    return .joystick (UInt32.ofNat (number4 b 12)).toInt32 (UInt32.ofNat (number4 b 16)).toInt32
  | 0x33 =>
    need b 17
    return .gyro (byteAt b 14).toInt8 (byteAt b 15).toInt8 (byteAt b 16).toInt8
  | variant => throw (.unknownVariant variant)

/-- The status in the reply to a poll; its message need not be well-formed text. -/
def decodeStatus (b : List UInt8) : Except DecodeError Payload := do
  need b 16
  let length := (byteAt b 15).toNat
  need b (16 + length)
  return .status
    { battery := UInt32.ofNat (number4 b 10)
      errorCode := byteAt b 14
      message := Text.Utf8.decodeLossy ((b.drop 16).take length) }

/-- Reads a datagram.  Bytes after the payload are ignored. -/
def decode (b : List UInt8) : Except DecodeError Packet := do
  need b 8
  if b.take 8 ≠ magic then throw .badMagic
  need b 9
  match PacketKind.ofCode? (byteAt b 8) with
  | none => throw (.unknownKind (byteAt b 8))
  | some kind =>
    need b 10
    let payload ←
      match kind with
      | .data => decodeData b
      | .pollReply => decodeStatus b
      | .poll => pure .empty
    return ⟨kind, byteAt b 9, payload⟩

end Wire

end LightingDesk
