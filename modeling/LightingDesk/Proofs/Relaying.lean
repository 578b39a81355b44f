import LightingDesk.Proofs.Cuts

/-!
# Packets sent on

A packet that has been read is written again and read once more.  It comes out as it was, but for
the reply to a poll whose message has grown too long: each part of the message that is no text is
read as U+FFFD, which takes three bytes, and a message is cut after 255 bytes when it is written.

    which texts a cut leaves as they are                     (clip_eq_self_iff)
    a byte is read as three at most                          (width_decodeLossy_le)
    what is read is a packet of its kind                     (carries_of_decode)
    its message is what the message bytes are read as        (message_of_decode)
    which packets come out as they were                      (decode_encode_of_decode)
-/

namespace LightingDesk

namespace Text.Utf8

/-! ## Cuts that change nothing -/

/-- A cut changes a text unless all of it fits, or the cut goes through a U+FFFD at its very end,
which is then read for what is left of it. -/
theorem clip_eq_self_iff (n : Nat) (cs : List Char) :
    clip n cs = cs ↔
      width cs ≤ n ∨ ∃ before, cs = before ++ ['\ufffd'] ∧ width before < n := by
  induction cs generalizing n with
  | nil =>
    constructor
    · intro _
      exact .inl (Nat.zero_le n)
    · intro _
      rfl
  | cons c rest ih =>
    rw [clip, width_cons]
    by_cases hc : (encodeChar c).length ≤ n
    · rw [if_pos hc, List.cons.injEq, ih]
      constructor
      · rintro ⟨-, h | ⟨before, rfl, h⟩⟩
        · exact .inl (by omega)
        · exact .inr ⟨c :: before, rfl, by rw [width_cons]; omega⟩
      · rintro (h | ⟨before, heq, h⟩)
        · exact ⟨rfl, .inl (by omega)⟩
        · cases before with
          | nil =>
            cases heq
            exact ⟨rfl, .inl (Nat.zero_le _)⟩
          | cons _ before =>
            cases heq
            rw [width_cons] at h
            exact ⟨rfl, .inr ⟨before, rfl, by omega⟩⟩
    · rw [if_neg hc]
      constructor
      · intro h
        right
        split at h
        · cases h
        · rename_i hn
          cases h
          exact ⟨[], rfl, Nat.pos_of_ne_zero hn⟩
      · rintro (h | ⟨before, heq, h⟩)
        · omega
        · cases before with
          | nil =>
            cases heq
            rw [if_neg (by rw [width_nil] at h; omega)]
          | cons _ before =>
            cases heq
            rw [width_cons] at h
            omega

/-- The cut goes through the last character, and nothing changes. -/
example : width ['é', '\ufffd'] = 5 ∧ clip 3 ['é', '\ufffd'] = ['é', '\ufffd'] := by decide

/-! ## How long a text can get -/

theorem length_encodeChar_le (c : Char) : (encodeChar c).length ≤ 4 := by
  unfold encodeChar
  dsimp only
  split
  · simp
  split
  · simp
  split <;> simp

theorem length_tails_le (n low high : Nat) (bs : List UInt8) :
    (tails n low high bs).length ≤ bs.length := by
  induction bs generalizing n low high with
  | nil => cases n <;> exact Nat.le_refl 0
  | cons b rest ih =>
    cases n with
    | zero => exact Nat.zero_le _
    | succ n =>
      rw [tails]
      split
      · exact Nat.succ_le_succ (ih n 0x80 0xbf)
      · exact Nat.zero_le _

theorem lt_of_lead_single {b : Nat} (h : lead b = .single) : b < 0x80 := by
  unfold lead at h
  split at h
  · assumption
  · repeat' split at h
    all_goals cases h

theorem more_pos {b bits more low high : Nat} (h : lead b = .leads bits more low high) :
    1 ≤ more := by
  unfold lead at h
  repeat' split at h
  all_goals simp at h
  all_goals omega

/-- A byte is read as three at most. -/
theorem width_decodeLossy_le (bytes : List UInt8) :
    width (decodeLossy bytes).toList ≤ 3 * bytes.length := by
  rw [decodeLossy, String.toList_ofList]
  have gap : (encodeChar '\ufffd').length = 3 := by decide
  induction bytes using scan.induct with
  | case1 => simp [scan]
  | case2 b rest hlead ih =>
    have hb := lt_of_lead_single hlead
    have hone : (encodeChar (Char.ofNat b.toNat)).length = 1 := by
      have hvalid : b.toNat.isValidChar := .inl (by omega)
      have hvalue : (Char.ofNat b.toNat).toNat = b.toNat := by
        rw [Char.ofNat, dif_pos hvalid]
        rfl
      rw [encodeChar, hvalue]
      simp [hb]
    rw [scan, hlead]
    simp only [List.map_cons, Option.getD_some, width_cons, List.length_cons, hone]
    omega
  | case3 b rest hlead ih =>
    rw [scan, hlead]
    simp only [List.map_cons, Option.getD_none, width_cons, List.length_cons, gap]
    omega
  | case4 b rest bits more low high hlead found hfound ih =>
    replace hfound : (tails more low high rest).length = more := hfound
    have hmore := more_pos hlead
    have hle := length_tails_le more low high rest
    have hchar := length_encodeChar_le
      (Char.ofNat ((tails more low high rest).foldl (fun v t => v * 64 + (t - 0x80)) bits))
    rw [List.length_drop] at ih
    rw [scan, hlead]
    simp only [hfound, if_true, List.map_cons, Option.getD_some, width_cons, List.length_cons]
    omega
  | case5 b rest bits more low high hlead found hfound ih =>
    replace hfound : ¬ (tails more low high rest).length = more := hfound
    replace ih : width ((scan (rest.drop (tails more low high rest).length)).map
        fun x => x.getD '\ufffd') ≤ 3 * (rest.drop (tails more low high rest).length).length := ih
    rw [List.length_drop] at ih
    rw [scan, hlead]
    simp only [hfound, if_false, List.map_cons, Option.getD_none, width_cons, List.length_cons,
      gap]
    omega

theorem decodeLossy_encode (s : String) : decodeLossy (encode s) = s := by
  have fits : width s.toList ≤ (encode s).length := Nat.le_refl _
  have h := decodeLossy_take s (encode s).length
  rwa [List.take_length, clip_of_fits fits, String.ofList_toList] at h

end Text.Utf8

open Text Utf8

/-- Whether a packet has no message, or one that a cut after 255 bytes does not change. -/
def Packet.Endures (c : Packet) : Prop :=
  ∀ s, c.payload = .status s →
    (encode s.message).length ≤ 255 ∨
      ∃ before, s.message.toList = before ++ ['\ufffd'] ∧ width before < 255

theorem Packet.received_eq_self_iff (c : Packet) : c.received = c ↔ c.Endures := by
  obtain ⟨kind, mode, payload⟩ := c
  cases payload with
  | status s =>
    have hclip : (⟨kind, mode, .status s⟩ : Packet).received = ⟨kind, mode, .status s⟩ ↔
        clip 255 s.message.toList = s.message.toList := by
      constructor
      · intro h
        have hm : String.ofList (clip 255 s.message.toList) = s.message := by
          have hs := congrArg Packet.payload h
          simp only [received, Payload.received, Payload.status.injEq] at hs
          exact congrArg Status.message hs
        rw [← String.toList_ofList (l := clip 255 s.message.toList), hm]
      · intro h
        simp only [received, Payload.received, h, String.ofList_toList]
    rw [hclip, clip_eq_self_iff]
    constructor
    · rintro h _ ⟨⟩
      exact h
    · exact fun h => h s rfl
  | _ =>
    constructor
    · intro _ s h
      cases h
    · intro _
      rfl

namespace Wire

/-! ## What is read -/

/-- The bytes of the message in a reply. -/
def messageBytes (b : List UInt8) : List UInt8 := (b.drop 16).take (byteAt b 15).toNat

theorem length_messageBytes_le (b : List UInt8) : (messageBytes b).length ≤ 255 := by
  have := (byteAt b 15).toNat_lt
  rw [messageBytes, List.length_take]
  omega

theorem ok_of_need {α : Type} {b : List UInt8} {n : Nat} {x : Except DecodeError α} {a : α}
    (h : (need b n >>= fun _ => x) = .ok a) : x = .ok a := by
  by_cases hn : n ≤ b.length
  · rw [need_of_le hn] at h
    exact h
  · rw [need, if_pos (Nat.lt_of_not_le hn)] at h
    cases h

theorem decodePayload_of_decode {b : List UInt8} {c : Packet} (h : decode b = .ok c) :
    decodePayload c.kind b = .ok c.payload := by
  rw [decode_eq] at h
  replace h := ok_of_need h
  split at h
  · replace h := ok_of_need h
    unfold decodeKind at h
    split at h
    · cases h
    · rename_i kind _
      replace h := ok_of_need h
      cases hp : decodePayload kind b with
      | error e =>
        rw [hp] at h
        cases h
      | ok payload =>
        rw [hp] at h
        cases h
        exact hp
  · cases h

theorem status_of_decodeStatus {b : List UInt8} {payload : Payload}
    (h : decodeStatus b = .ok payload) :
    ∃ s, payload = .status s ∧ s.message = decodeLossy (messageBytes b) := by
  replace h : (need b 16 >>= fun _ => need b (16 + (byteAt b 15).toNat) >>= fun _ =>
    .ok (.status ⟨UInt32.ofNat (number4 b 10), byteAt b 14, decodeLossy (messageBytes b)⟩)) =
      .ok payload := h
  cases ok_of_need (ok_of_need h)
  exact ⟨_, rfl, rfl⟩

theorem carries_of_decodePayload {kind : PacketKind} {b : List UInt8} {payload : Payload}
    (h : decodePayload kind b = .ok payload) : kind.carries payload = true := by
  cases kind with
  | data =>
    replace h : (need b 11 >>= fun _ => decodeVariant (byteAt b 10) b) = .ok payload := h
    replace h := ok_of_need h
    unfold decodeVariant at h
    split at h
    · cases ok_of_need h
      rfl
    · cases ok_of_need h
      rfl
    · cases ok_of_need h
      rfl
    · cases h
  | poll =>
    cases h
    rfl
  | pollReply =>
    obtain ⟨s, rfl, -⟩ := status_of_decodeStatus h
    rfl

/-- What is read is a packet of its kind. -/
theorem carries_of_decode {b : List UInt8} {c : Packet} (h : decode b = .ok c) :
    c.kind.carries c.payload = true :=
  carries_of_decodePayload (decodePayload_of_decode h)

/-- The message of a reply is what its bytes are read as. -/
theorem message_of_decode {b : List UInt8} {c : Packet} (h : decode b = .ok c) {s : Status}
    (hs : c.payload = .status s) : s.message = decodeLossy (messageBytes b) := by
  have hp := decodePayload_of_decode h
  have hc := carries_of_decode h
  rw [hs] at hp hc
  cases hk : c.kind with
  | data =>
    rw [hk] at hc
    cases hc
  | poll =>
    rw [hk] at hc
    cases hc
  | pollReply =>
    rw [hk] at hp
    obtain ⟨s', hs', hm⟩ := status_of_decodeStatus hp
    cases hs'
    exact hm

/-! ## A message that grows -/

theorem scan_stray (n : Nat) :
    scan (List.replicate n 0xff) = List.replicate n none := by
  induction n with
  | zero => rw [List.replicate_zero, scan, List.replicate_zero]
  | succ n ih =>
    have hlead : lead (0xff : UInt8).toNat = .stray := by decide
    rw [List.replicate_succ, scan, hlead, List.replicate_succ]
    dsimp only
    rw [ih]

/-- The reply with a message of `n` bytes that are all no text. -/
def strayReply (n : Nat) : List UInt8 :=
  magic ++ [PacketKind.pollReply.code, 0] ++
    (bytes4 (0 : UInt32).toNat ++ [0, (List.replicate n (0xff : UInt8)).length.toUInt8] ++
      List.replicate n 0xff)

/-- The reply with a message of `n` times U+FFFD. -/
def gapReply (n : Nat) : Packet :=
  ⟨.pollReply, 0, .status ⟨0, 0, String.ofList (List.replicate n '\ufffd')⟩⟩

theorem decode_strayReply {n : Nat} (h : n ≤ 255) : decode (strayReply n) = .ok (gapReply n) := by
  have hl : (List.replicate n (0xff : UInt8)).length ≤ 255 := by
    rw [List.length_replicate]
    exact h
  rw [strayReply, decode_append]
  dsimp only
  rw [decodeStatus_append 0 0 0 hl, decodeLossy, scan_stray, List.map_replicate]
  rfl

/-- 86 times U+FFFD takes 258 bytes, and a cut after 255 of them leaves 85. -/
theorem received_gapReply : (gapReply 86).received = gapReply 85 := by
  have hcut : clip 255 (List.replicate 86 '\ufffd') = List.replicate 85 '\ufffd' := by
    decide +kernel
  rw [gapReply, Packet.received, Payload.received, String.toList_ofList, hcut]
  rfl

theorem gapReply_injective {m n : Nat} (h : gapReply m = gapReply n) : m = n := by
  have hs := congrArg Packet.payload h
  simp only [gapReply, Payload.status.injEq] at hs
  have hl := congrArg String.toList (congrArg Status.message hs)
  simpa using congrArg List.length hl

/-! ## Which packets come out as they were -/

/-- A packet that has been read comes out of its own datagram with its message cut after 255 bytes.
So it comes out as it was exactly if it has no message, or one that the cut does not change; and
that is so whenever the message in the datagram was a text, or had no more than 85 bytes. -/
theorem decode_encode_of_decode {b : List UInt8} {c : Packet} (h : decode b = .ok c) :
    (∃ c', decode (encode c) = .ok c' ∧ c.ComesOutAs c') ∧
      (decode (encode c) = .ok c ↔ c.Endures) ∧
      ((∃ text, Utf8.encode text = messageBytes b) → c.Endures) ∧
      ((messageBytes b).length ≤ 85 → c.Endures) := by
  have comesOut := decode_encode_eq (carries_of_decode h)
  refine ⟨⟨c.received, comesOut, c.comesOutAs_received⟩, ?_, ?_, ?_⟩
  · rw [comesOut, Except.ok.injEq]
    exact c.received_eq_self_iff
  · rintro ⟨text, htext⟩ s hs
    left
    have hm := message_of_decode h hs
    rw [← htext, decodeLossy_encode] at hm
    rw [hm, htext]
    exact length_messageBytes_le b
  · intro hshort s hs
    left
    have hwidth := width_decodeLossy_le (messageBytes b)
    rw [← message_of_decode h hs] at hwidth
    show width s.message.toList ≤ 255
    omega

/-- A reply whose message takes the 255 bytes that a reply has room for. -/
theorem decode_encode_gapReply :
    decode (strayReply 85) = .ok (gapReply 85) ∧
      decode (encode (gapReply 85)) = .ok (gapReply 85) := by
  have hread : decode (strayReply 85) = .ok (gapReply 85) := decode_strayReply (by decide)
  have hshort : (messageBytes (strayReply 85)).length ≤ 85 := by decide +kernel
  obtain ⟨-, same, -, endures⟩ := decode_encode_of_decode hread
  exact ⟨hread, same.2 (endures hshort)⟩

/-- A reply with one byte more, which does not come out as it was. -/
theorem decode_encode_gapReply_ne :
    decode (strayReply 86) = .ok (gapReply 86) ∧
      decode (encode (gapReply 86)) ≠ .ok (gapReply 86) := by
  have hread : decode (strayReply 86) = .ok (gapReply 86) := decode_strayReply (by decide)
  refine ⟨hread, ?_⟩
  rw [decode_encode_eq (carries_of_decode hread), received_gapReply]
  intro h
  cases gapReply_injective (Except.ok.inj h)

end Wire

end LightingDesk
