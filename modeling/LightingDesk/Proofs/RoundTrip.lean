import LightingDesk.Proofs.Utf8
import LightingDesk.Remote.Wire

/-!
# Packets there and back

What is read from the datagram of a packet is that packet, except that a message of more than 255
bytes is cut.  A packet that has been read comes back as it is.

    four bytes are read as the number they were written from     (number4_append)
    a datagram is read as its packet, with the message cut       (decode_encode_eq)
    which is there and back what it was                          (decode_encode)
-/

namespace LightingDesk

open Text Utf8

/-- Whether a packet of a kind can carry a payload. -/
def PacketKind.carries : PacketKind → Payload → Bool
  | .data, .userAction _ | .data, .joystick _ _ | .data, .gyro _ _ _ => true
  | .poll, .empty => true
  | .pollReply, .status _ => true
  | _, _ => false

/-- A payload as it is read: only a message can change on the way. -/
def Payload.received : Payload → Payload
  | .status s => .status { s with message := String.ofList (clip 255 s.message.toList) }
  | p => p

/-- A packet as it is read. -/
def Packet.received (c : Packet) : Packet := { c with payload := c.payload.received }

/-- How a packet comes out: as it went in, unless it has a message of more than 255 bytes, which is
clipped. -/
structure Packet.ComesOutAs (c c' : Packet) : Prop where
  same : (∀ s, c.payload = .status s → (encode s.message).length ≤ 255) → c' = c
  cut : ∀ s, c.payload = .status s → 255 < (encode s.message).length →
    ∃ message : String, Clipped 255 s.message.toList message.toList ∧
      c' = ⟨c.kind, c.mode, .status { s with message }⟩

theorem Packet.comesOutAs_received (c : Packet) : c.ComesOutAs c.received := by
  obtain ⟨kind, mode, payload⟩ := c
  refine ⟨?_, ?_⟩
  · intro short
    cases payload with
    | status s =>
      have hc : clip 255 s.message.toList = s.message.toList := clip_of_fits (short s rfl)
      simp only [received, Payload.received, hc, String.ofList_toList]
    | _ => rfl
  · rintro s rfl long
    refine ⟨String.ofList (clip 255 s.message.toList), ?_, rfl⟩
    rw [String.toList_ofList]
    exact clipped_clip 255 s.message.toList

theorem Packet.received_received (c : Packet) : c.received.received = c.received := by
  obtain ⟨kind, mode, payload⟩ := c
  cases payload with
  | status s => simp only [received, Payload.received, String.toList_ofList, clip_clip]
  | _ => rfl

theorem Packet.carries_received (c : Packet) :
    c.received.kind.carries c.received.payload = c.kind.carries c.payload := by
  obtain ⟨kind, mode, payload⟩ := c
  cases kind <;> cases payload <;> rfl

namespace Wire

/-! ## Numbers -/

theorem byteAt_append (before after : List UInt8) (i : Nat) :
    byteAt (before ++ after) (before.length + i) = byteAt after i := by
  simp [byteAt, List.getElem?_append_right]

theorem number4_append (before after : List UInt8) {n : Nat} (h : n < 4294967296) :
    number4 (before ++ (bytes4 n ++ after)) before.length = n := by
  have h0 := byteAt_append before (bytes4 n ++ after) 0
  have h1 := byteAt_append before (bytes4 n ++ after) 1
  have h2 := byteAt_append before (bytes4 n ++ after) 2
  have h3 := byteAt_append before (bytes4 n ++ after) 3
  rw [Nat.add_zero] at h0
  rw [number4, h0, h1, h2, h3]
  show n.toUInt8.toNat + 256 * (n / 256).toUInt8.toNat + 65536 * (n / 65536).toUInt8.toNat +
    16777216 * (n / 16777216).toUInt8.toNat = n
  simp only [Nat.toUInt8_eq, UInt8.toNat_ofNat']
  omega

theorem number4_toNat (before after : List UInt8) (n : UInt32) :
    UInt32.ofNat (number4 (before ++ (bytes4 n.toNat ++ after)) before.length) = n := by
  rw [number4_append before after n.toNat_lt, UInt32.ofNat_toNat]

/-! ## Datagrams -/

theorem need_of_le {b : List UInt8} {n : Nat} (h : n ≤ b.length) : need b n = .ok () :=
  if_neg (Nat.not_lt.2 h)

theorem decodeData_encode {p : Payload} (h : PacketKind.data.carries p = true) (mode : UInt8) :
    decodeData (encode ⟨.data, mode, p⟩) = .ok p := by
  cases p with
  | userAction code => rfl
  | joystick x y =>
    have hx := number4_toNat (magic ++ [PacketKind.data.code, mode] ++ [0x23, 0])
      (bytes4 y.toUInt32.toNat) x.toUInt32
    have hy := number4_toNat (magic ++ [PacketKind.data.code, mode] ++ [0x23, 0] ++
      bytes4 x.toUInt32.toNat) [] y.toUInt32
    show Except.ok (Payload.joystick
      (UInt32.ofNat (number4 (encode ⟨.data, mode, .joystick x y⟩) 12)).toInt32
      (UInt32.ofNat (number4 (encode ⟨.data, mode, .joystick x y⟩) 16)).toInt32) = _
    have hx' : UInt32.ofNat (number4 (encode ⟨.data, mode, .joystick x y⟩) 12) = x.toUInt32 := hx
    have hy' : UInt32.ofNat (number4 (encode ⟨.data, mode, .joystick x y⟩) 16) = y.toUInt32 := hy
    rw [hx', hy', Int32.toInt32_toUInt32, Int32.toInt32_toUInt32]
  | gyro x y z =>
    show Except.ok (Payload.gyro x.toUInt8.toInt8 y.toUInt8.toInt8 z.toUInt8.toInt8) = _
    simp only [Int8.toInt8_toUInt8]
  | status s => cases h
  | empty => cases h

/-- The bytes of a status are read back whatever its message's bytes are. -/
theorem decodeStatus_append (mode errorCode : UInt8) (battery : UInt32) {bytes : List UInt8}
    (h : bytes.length ≤ 255) :
    decodeStatus (magic ++ [PacketKind.pollReply.code, mode] ++
      (bytes4 battery.toNat ++ [errorCode, bytes.length.toUInt8] ++ bytes)) =
      .ok (.status ⟨battery, errorCode, decodeLossy bytes⟩) := by
  have hb := number4_toNat (magic ++ [PacketKind.pollReply.code, mode])
    ([errorCode, bytes.length.toUInt8] ++ bytes) battery
  have hn : bytes.length.toUInt8.toNat = bytes.length := toNat_toUInt8 (by omega)
  rw [← List.append_assoc (bytes4 _)] at hb
  generalize hd : magic ++ [PacketKind.pollReply.code, mode] ++
    (bytes4 battery.toNat ++ [errorCode, bytes.length.toUInt8] ++ bytes) = b at hb
  have hl : b.length = 16 + bytes.length := by
    rw [← hd]
    simp [magic, bytes4]
    omega
  have h14 : byteAt b 14 = errorCode := by rw [← hd]; rfl
  have h15 : (byteAt b 15).toNat = bytes.length := by
    rw [← hn, ← hd]
    rfl
  have hm : (b.drop 16).take bytes.length = bytes := by
    rw [← hd]
    exact List.take_length
  have hb' : UInt32.ofNat (number4 b 10) = battery := hb
  unfold decodeStatus
  rw [need_of_le (by omega), h15]
  show (need b (16 + bytes.length) >>= fun _ => _) = _
  rw [need_of_le (by omega), h14, hm, hb']
  rfl

/-- A datagram is read by its kind. -/
theorem decode_append (kind : PacketKind) (mode : UInt8) (body : List UInt8) :
    decode (magic ++ [kind.code, mode] ++ body) = (do
      let payload ←
        match kind with
        | .data => decodeData (magic ++ [kind.code, mode] ++ body)
        | .pollReply => decodeStatus (magic ++ [kind.code, mode] ++ body)
        | .poll => pure .empty
      return ⟨kind, mode, payload⟩) := by
  have hl : 10 ≤ (magic ++ [kind.code, mode] ++ body).length := by
    simp [magic]
  unfold decode
  rw [need_of_le (by omega), need_of_le (by omega), need_of_le hl]
  cases kind <;> rfl

/-- What is read from a packet's datagram is the packet as it is received. -/
theorem decode_encode_eq {c : Packet} (h : c.kind.carries c.payload = true) :
    decode (encode c) = .ok c.received := by
  obtain ⟨kind, mode, payload⟩ := c
  rw [encode, decode_append]
  cases kind with
  | data =>
    have hd := decodeData_encode h mode
    rw [encode] at hd
    dsimp only
    rw [hd]
    cases payload <;> first | rfl | cases h
  | poll => cases payload <;> first | rfl | cases h
  | pollReply =>
    cases payload with
    | status s =>
      have hs := decodeStatus_append mode s.errorCode s.battery
        (List.length_take_le 255 (Utf8.encode s.message))
      rw [decodeLossy_take] at hs
      simp only [payloadBytes]
      rw [hs]
      rfl
    | _ => cases h

/-- What is read from a packet's datagram is that packet, with its message clipped if it takes more
than 255 bytes; and a packet that has been read is read from its own datagram as it is.  The desk's
heartbeat is the datagram of a poll. -/
theorem decode_encode {c : Packet} (h : c.kind.carries c.payload = true) :
    (∃ c', decode (encode c) = .ok c' ∧ c.ComesOutAs c' ∧ decode (encode c') = .ok c') ∧
      ∀ mode, heartbeat mode = encode ⟨.poll, mode, .empty⟩ := by
  refine ⟨⟨c.received, decode_encode_eq h, c.comesOutAs_received, ?_⟩, fun _ => rfl⟩
  rw [decode_encode_eq (c.carries_received.trans h), c.received_received]

/-- A reply whose message is cut in the middle of its last character. -/
def cutReply : Packet :=
  ⟨.pollReply, 0, .status ⟨0, 7, String.ofList (List.replicate 254 'a' ++ ['é'])⟩⟩

theorem decode_encode_cutReply :
    ∃ c', decode (encode cutReply) = .ok c' ∧ decode (encode c') = .ok c' ∧
      c' = ⟨.pollReply, 0,
        .status ⟨0, 7, String.ofList (List.replicate 254 'a' ++ ['\ufffd'])⟩⟩ := by
  obtain ⟨⟨c', once, -, again⟩, -⟩ := decode_encode (c := cutReply) rfl
  have received := decode_encode_eq (c := cutReply) rfl
  refine ⟨c', once, again, ?_⟩
  have clipped : clip 255 (List.replicate 254 'a' ++ ['é']) =
      List.replicate 254 'a' ++ ['\ufffd'] := by decide +kernel
  rw [once] at received
  cases received
  simp only [cutReply, Packet.received, Payload.received, String.toList_ofList, clipped]

end Wire

end LightingDesk
