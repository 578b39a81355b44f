import LightingDesk.Proofs.RoundTrip

/-!
# Cut datagrams

Reading asks for bytes before it looks at them, and goes by nothing but the bytes it has asked for.
So a packet stands in the first bytes of its datagram, whatever follows; a datagram that is refused
stays refused; and one that is too short says how many bytes the next part would have needed.

    a reader that is put together of careful parts is careful      (careful_need, careful_by, ...)
    reading a datagram is careful                                  (careful_decode)
    cutting and extending never change what a datagram says        (fate_decode)
-/

namespace LightingDesk.Wire

variable {α β κ : Type}

/-- How many bytes a reader asks for.  It has checked `lo` of them already.  A datagram with fewer
than `n` is too short, and so is one that agrees with it as far as it goes; one with `n` of them is
not, and nothing else in it counts. -/
structure Asks (lo : Nat) (f : List UInt8 → Except DecodeError α) (b : List UInt8) (n : Nat) :
    Prop where
  checked_le : lo ≤ n
  le_longest : n ≤ 271
  short : ∀ rest, (b ++ rest).length < n →
    f (b ++ rest) = .error (.truncated n (b ++ rest).length)
  settled : n ≤ b.length → ∀ needed length, f b ≠ .error (.truncated needed length)
  same : n ≤ b.length → ∀ b', n ≤ b'.length → b'.take n = b.take n → f b' = f b
  cut : n ≤ b.length → ∀ m, lo ≤ m → m < n →
    ∃ needed, f (b.take m) = .error (.truncated needed m)

/-- Whether a reader of datagrams of at least `lo` bytes asks for all others that it looks at. -/
def Careful (lo : Nat) (f : List UInt8 → Except DecodeError α) : Prop :=
  ∀ b, lo ≤ b.length → ∃ n, Asks lo f b n

/-! ## What the checked bytes say -/

theorem byteAt_take {b : List UInt8} {i n : Nat} (h : i < n) :
    byteAt (b.take n) i = byteAt b i := by
  simp [byteAt, h]

theorem number4_take {b : List UInt8} {i n : Nat} (h : i + 3 < n) :
    number4 (b.take n) i = number4 b i := by
  unfold number4
  rw [byteAt_take (by omega), byteAt_take (by omega), byteAt_take (by omega),
    byteAt_take (by omega)]

theorem eq_of_take {v : List UInt8 → α} {lo n : Nat} (hv : ∀ b, v (b.take lo) = v b)
    (h : lo ≤ n) {b b' : List UInt8} (same : b'.take n = b.take n) : v b' = v b := by
  have hlo : b'.take lo = b.take lo := by
    have := congrArg (List.take lo) same
    rwa [List.take_take, List.take_take, Nat.min_eq_left h] at this
  rw [← hv b', hlo, hv b]

theorem take_append_of_checked {b : List UInt8} {lo : Nat} (h : lo ≤ b.length)
    (rest : List UInt8) : (b ++ rest).take lo = b.take lo :=
  List.take_append_of_le_length h

/-! ## Careful parts -/

/-- An answer that goes by the checked bytes alone. -/
theorem careful_of_take {lo : Nat} {f : List UInt8 → Except DecodeError α} (hlo : lo ≤ 271)
    (hf : ∀ b, f (b.take lo) = f b)
    (settled : ∀ b needed length, f b ≠ .error (.truncated needed length)) : Careful lo f := by
  intro b hb
  refine ⟨lo, Nat.le_refl lo, hlo, ?_, fun _ => settled b, ?_, ?_⟩
  · intro rest h
    rw [List.length_append] at h
    omega
  · exact fun _ b' _ same => eq_of_take hf (Nat.le_refl lo) same
  · intro _ m hm hlt
    omega

/-- Asking for more bytes than have been checked. -/
theorem careful_need {lo n : Nat} {f : List UInt8 → Except DecodeError α} (hlo : lo ≤ n)
    (hn : n ≤ 271) (h : Careful n f) : Careful lo fun b => need b n >>= fun _ => f b := by
  have hshort : ∀ b : List UInt8, b.length < n →
      (need b n >>= fun _ => f b) = .error (.truncated n b.length) := by
    intro b hb
    rw [need, if_pos hb]
    rfl
  have hlong : ∀ b : List UInt8, n ≤ b.length → (need b n >>= fun _ => f b) = f b := by
    intro b hb
    rw [need_of_le hb]
    rfl
  intro b hb
  by_cases hbn : b.length < n
  · refine ⟨n, hlo, hn, fun rest => hshort (b ++ rest), ?_, ?_, ?_⟩ <;>
      exact fun hge => absurd hbn (Nat.not_lt.2 hge)
  · have hbn : n ≤ b.length := Nat.le_of_not_lt hbn
    obtain ⟨k, ask⟩ := h b hbn
    have hnk := ask.checked_le
    refine ⟨k, Nat.le_trans hlo hnk, ask.le_longest, ?_, ?_, ?_, ?_⟩
    · intro rest hlt
      rw [hlong _ (by rw [List.length_append]; omega)]
      exact ask.short rest hlt
    · intro hk
      rw [hlong b hbn]
      exact ask.settled hk
    · intro hk b' hk' same
      rw [hlong b hbn, hlong b' (Nat.le_trans hnk hk')]
      exact ask.same hk b' hk' same
    · intro hk m hm hlt
      have hl : (b.take m).length = m := List.length_take_of_le (by omega)
      by_cases hmn : m < n
      · refine ⟨n, ?_⟩
        rw [hshort _ (by omega), hl]
      · rw [hlong _ (by omega)]
        exact ask.cut hk m (by omega) hlt

/-- Going on by what the checked bytes say. -/
theorem careful_by {lo : Nat} (key : List UInt8 → κ) (hkey : ∀ b, key (b.take lo) = key b)
    {f : List UInt8 → Except DecodeError α} (g : κ → List UInt8 → Except DecodeError α)
    (hf : ∀ b, f b = g (key b) b) (h : ∀ k, Careful lo (g k)) : Careful lo f := by
  intro b hb
  obtain ⟨n, ask⟩ := h (key b) b hb
  have hlo := ask.checked_le
  refine ⟨n, hlo, ask.le_longest, ?_, ?_, ?_, ?_⟩
  · intro rest hlt
    rw [hf, eq_of_take hkey (Nat.le_refl lo) (take_append_of_checked hb rest)]
    exact ask.short rest hlt
  · intro hn
    rw [hf]
    exact ask.settled hn
  · intro hn b' hn' same
    rw [hf, hf, eq_of_take hkey hlo same]
    exact ask.same hn b' hn' same
  · intro hn m hm hlt
    have same : (b.take m).take lo = b.take lo := by rw [List.take_take, Nat.min_eq_left hm]
    rw [hf, eq_of_take hkey (Nat.le_refl lo) same]
    exact ask.cut hn m hm hlt

/-- Putting what has been read together with what the checked bytes say. -/
theorem careful_map {lo : Nat} {f : List UInt8 → Except DecodeError α} (h : Careful lo f)
    (v : List UInt8 → α → β) (hv : ∀ b, v (b.take lo) = v b) :
    Careful lo fun b => f b >>= fun a => .ok (v b a) := by
  intro b hb
  obtain ⟨n, ask⟩ := h b hb
  refine ⟨n, ask.checked_le, ask.le_longest, ?_, ?_, ?_, ?_⟩
  · intro rest hlt
    rw [ask.short rest hlt]
    rfl
  · intro hn needed length
    have hs := ask.settled hn needed length
    cases hfb : f b with
    | ok a => nofun
    | error e =>
      rw [hfb] at hs
      exact fun he => hs (by cases he; rfl)
  · intro hn b' hn' same
    rw [ask.same hn b' hn' same, eq_of_take hv ask.checked_le same]
  · intro hn m hm hlt
    obtain ⟨needed, hcut⟩ := ask.cut hn m hm hlt
    refine ⟨needed, ?_⟩
    rw [hcut]
    rfl

/-! ## Datagrams -/

/-- Reads the payload of a data packet of a variant. -/
def decodeVariant (variant : UInt8) (b : List UInt8) : Except DecodeError Payload :=
  match variant with
  | 0x13 => need b 12 >>= fun _ => .ok (.userAction (byteAt b 11))
  | 0x23 => need b 20 >>= fun _ =>
    .ok (.joystick (UInt32.ofNat (number4 b 12)).toInt32 (UInt32.ofNat (number4 b 16)).toInt32)
  | 0x33 => need b 17 >>= fun _ =>
    .ok (.gyro (byteAt b 14).toInt8 (byteAt b 15).toInt8 (byteAt b 16).toInt8)
  | variant => .error (.unknownVariant variant)

theorem careful_decodeVariant (variant : UInt8) : Careful 11 (decodeVariant variant) := by
  unfold decodeVariant
  split
  · refine careful_need (by omega) (by omega) (careful_of_take (by omega) ?_ (fun _ _ _ => nofun))
    intro b
    rw [byteAt_take (by omega)]
  · refine careful_need (by omega) (by omega) (careful_of_take (by omega) ?_ (fun _ _ _ => nofun))
    intro b
    rw [number4_take (by omega), number4_take (by omega)]
  · refine careful_need (by omega) (by omega) (careful_of_take (by omega) ?_ (fun _ _ _ => nofun))
    intro b
    rw [byteAt_take (by omega), byteAt_take (by omega), byteAt_take (by omega)]
  · exact careful_of_take (by omega) (fun _ => rfl) (fun _ _ _ => nofun)

theorem careful_decodeData : Careful 10 decodeData := by
  refine careful_need (n := 11) (by omega) (by omega) ?_
  exact careful_by (byteAt · 10) (fun b => byteAt_take (by omega)) decodeVariant (fun _ => rfl)
    careful_decodeVariant

theorem careful_decodeStatus : Careful 10 decodeStatus := by
  refine careful_need (n := 16) (by omega) (by omega) ?_
  refine careful_by (byteAt · 15) (fun b => byteAt_take (by omega)) (fun length b =>
    need b (16 + length.toNat) >>= fun _ => .ok (.status
      { battery := UInt32.ofNat (number4 b 10)
        errorCode := byteAt b 14
        message := Text.Utf8.decodeLossy ((b.drop 16).take length.toNat) })) (fun _ => rfl) ?_
  intro length
  have hl := length.toNat_lt
  refine careful_need (by omega) (by omega) (careful_of_take (by omega) ?_ (fun _ _ _ => nofun))
  intro b
  rw [number4_take (by omega), byteAt_take (by omega), List.drop_take, Nat.add_sub_cancel_left,
    List.take_take, Nat.min_self]

/-- Reads the payload of a packet of a kind. -/
def decodePayload (kind : PacketKind) (b : List UInt8) : Except DecodeError Payload :=
  match kind with
  | .data => decodeData b
  | .pollReply => decodeStatus b
  | .poll => .ok .empty

/-- Reads a packet of the kind that has a code. -/
def decodeKind (code : UInt8) (b : List UInt8) : Except DecodeError Packet :=
  match PacketKind.ofCode? code with
  | none => .error (.unknownKind code)
  | some kind => need b 10 >>= fun _ =>
    decodePayload kind b >>= fun payload => .ok ⟨kind, byteAt b 9, payload⟩

/-- The steps of reading, one after the other. -/
theorem decode_eq (b : List UInt8) : decode b = need b 8 >>= fun _ =>
    if b.take 8 = magic then need b 9 >>= fun _ => decodeKind (byteAt b 8) b
    else .error .badMagic := by
  unfold decode
  congr 1
  funext _
  by_cases hm : b.take 8 = magic
  · rw [if_pos hm, if_neg (not_not_intro hm)]
    unfold decodeKind
    cases PacketKind.ofCode? (byteAt b 8) with
    | none => rfl
    | some kind => cases kind <;> rfl
  · rw [if_neg hm, if_pos hm]
    rfl

theorem careful_decodePayload (kind : PacketKind) : Careful 10 (decodePayload kind) := by
  cases kind with
  | data => exact careful_decodeData
  | pollReply => exact careful_decodeStatus
  | poll => exact careful_of_take (by omega) (fun _ => rfl) (fun _ _ _ => nofun)

theorem careful_decodeKind (code : UInt8) : Careful 9 (decodeKind code) := by
  unfold decodeKind
  cases PacketKind.ofCode? code with
  | none => exact careful_of_take (by omega) (fun _ => rfl) (fun _ _ _ => nofun)
  | some kind =>
    refine careful_need (by omega) (by omega) ?_
    refine careful_map (careful_decodePayload kind)
      (fun b payload => (⟨kind, byteAt b 9, payload⟩ : Packet)) ?_
    intro b
    rw [byteAt_take (by omega)]

/-- Reading a datagram never looks at a byte that it has not asked for. -/
theorem careful_decode : Careful 0 decode := by
  rw [funext decode_eq]
  refine careful_need (by omega) (by omega) ?_
  refine careful_by (fun b => decide (b.take 8 = magic)) (fun b => by rw [List.take_take]; rfl)
    (fun isMagic b => if isMagic then need b 9 >>= fun _ => decodeKind (byteAt b 8) b
      else .error .badMagic) (fun b => by simp only [decide_eq_true_eq]) ?_
  intro isMagic
  cases isMagic with
  | false => exact careful_of_take (by omega) (fun _ => rfl) (fun _ _ _ => nofun)
  | true =>
    refine careful_need (n := 9) (by omega) (by omega) ?_
    exact careful_by (byteAt · 8) (fun b => byteAt_take (by omega)) decodeKind (fun _ => rfl)
      careful_decodeKind

/-! ## What becomes of a datagram -/

/-- What can become of a datagram: it holds a whole packet, it is refused, or it is too short. -/
inductive Fate
  | whole
  | refused
  | short
deriving DecidableEq, Repr

/-- Whether a datagram has a fate, whatever is cut off from it or added to it.  A whole packet
stands in its first `n` bytes, and fewer are too short; what is refused is refused however it goes
on; and what is too short stays so, for the same reason, until the bytes that it lacks are there. -/
def HasFate (b : List UInt8) : Fate → Prop
  | .whole => ∃ c n, decode b = .ok c ∧ n ≤ 271 ∧ n ≤ b.length ∧
      (∀ m, n ≤ m → decode (b.take m) = .ok c) ∧
      (∀ rest, decode (b ++ rest) = .ok c) ∧
      ∀ m, m < n → ∃ needed, decode (b.take m) = .error (.truncated needed m)
  | .refused => ∃ e, (e = .badMagic ∨ (∃ k, e = .unknownKind k) ∨ ∃ v, e = .unknownVariant v) ∧
      ∀ rest, decode (b ++ rest) = .error e
  | .short => ∃ needed, decode b = .error (.truncated needed b.length) ∧
      b.length < needed ∧ needed ≤ 271 ∧
      (∀ rest, (b ++ rest).length < needed →
        decode (b ++ rest) = .error (.truncated needed (b ++ rest).length)) ∧
      ∀ rest, needed ≤ (b ++ rest).length →
        ∀ length, decode (b ++ rest) ≠ .error (.truncated needed length)

/-- A datagram lacks more bytes than it has. -/
theorem lt_of_truncated {b : List UInt8} {needed length : Nat}
    (h : decode b = .error (.truncated needed length)) : b.length < needed := by
  obtain ⟨n, ask⟩ := careful_decode b (Nat.zero_le _)
  by_cases hn : n ≤ b.length
  · exact absurd h (ask.settled hn needed length)
  · have hlt : b.length < n := Nat.lt_of_not_le hn
    have hs := ask.short [] (by rw [List.append_nil]; exact hlt)
    rw [List.append_nil, h] at hs
    cases hs
    exact hlt

theorem decode_take_of_asks {b : List UInt8} {n m : Nat} (ask : Asks 0 decode b n)
    (hb : n ≤ b.length) (hm : n ≤ m) : decode (b.take m) = decode b := by
  refine ask.same hb _ ?_ ?_
  · rw [List.length_take]
    omega
  · rw [List.take_take, Nat.min_eq_left hm]

theorem decode_append_of_asks {b : List UInt8} {n : Nat} (ask : Asks 0 decode b n)
    (hb : n ≤ b.length) (rest : List UInt8) : decode (b ++ rest) = decode b := by
  refine ask.same hb _ ?_ (take_append_of_checked hb rest)
  rw [List.length_append]
  omega

theorem exists_fate (b : List UInt8) : ∃ fate, HasFate b fate := by
  obtain ⟨n, ask⟩ := careful_decode b (Nat.zero_le _)
  by_cases hb : n ≤ b.length
  · have append := decode_append_of_asks ask hb
    cases hd : decode b with
    | ok c =>
      rw [hd] at append
      refine ⟨.whole, c, n, hd, ask.le_longest, hb, ?_, append, ?_⟩
      · intro m hm
        rw [decode_take_of_asks ask hb hm, hd]
      · exact fun m hm => ask.cut hb m (Nat.zero_le m) hm
    | error e =>
      rw [hd] at append
      refine ⟨.refused, e, ?_, append⟩
      cases e with
      | truncated needed length => exact absurd hd (ask.settled hb needed length)
      | badMagic => exact .inl rfl
      | unknownKind k => exact .inr (.inl ⟨k, rfl⟩)
      | unknownVariant v => exact .inr (.inr ⟨v, rfl⟩)
  · have hlt : b.length < n := Nat.lt_of_not_le hb
    have hs := ask.short [] (by rw [List.append_nil]; exact hlt)
    rw [List.append_nil] at hs
    refine ⟨.short, n, hs, hlt, ask.le_longest, ask.short, ?_⟩
    intro rest hle length h
    have := lt_of_truncated h
    omega

/-- A datagram's fate can be told by what is read from it. -/
theorem fate_eq_of_hasFate {b : List UInt8} {fate fate' : Fate} (h : HasFate b fate)
    (h' : HasFate b fate') : fate = fate' := by
  have answer : ∀ {fate}, HasFate b fate → fate =
      match decode b with
      | .ok _ => .whole
      | .error (.truncated _ _) => .short
      | .error _ => .refused := by
    intro fate h
    cases fate with
    | whole =>
      obtain ⟨c, n, hd, -⟩ := h
      rw [hd]
    | refused =>
      obtain ⟨e, he, hd⟩ := h
      have hd := hd []
      rw [List.append_nil] at hd
      rw [hd]
      rcases he with rfl | ⟨k, rfl⟩ | ⟨v, rfl⟩ <;> rfl
    | short =>
      obtain ⟨needed, hd, -⟩ := h
      rw [hd]
  exact (answer h).trans (answer h').symm

/-- Every datagram has exactly one fate, which no cut and no addition changes: a packet stands in
the first bytes, at most 271 of them; or the datagram is refused for good; or it is too short.  So
nothing is lost when a datagram is only received up to its greatest length. -/
theorem fate_decode (b : List UInt8) :
    (∃ fate, HasFate b fate ∧ ∀ fate', HasFate b fate' → fate' = fate) ∧
      decode (b.take maxDatagram) = decode b := by
  constructor
  · obtain ⟨fate, h⟩ := exists_fate b
    exact ⟨fate, h, fun fate' h' => fate_eq_of_hasFate h' h⟩
  · obtain ⟨n, ask⟩ := careful_decode b (Nat.zero_le _)
    have hn := ask.le_longest
    have hmax : maxDatagram = 1024 := rfl
    by_cases hb : n ≤ b.length
    · exact decode_take_of_asks ask hb (by omega)
    · rw [List.take_of_length_le (by omega)]

end LightingDesk.Wire
