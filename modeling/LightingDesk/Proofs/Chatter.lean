import LightingDesk.Proofs.Announcing
import LightingDesk.Proofs.RoundTrip

/-!
# Chatter

Much of what a session hears is no data: datagrams that do not decode, polls, of which some are its
own heartbeats, and the replies to polls.  Such chatter leaves the desk, the lights and all that
goes out as they are, whatever it says.  Only a reply to a poll tells where a controller is, so a
session never takes itself for one.

    a packet that is no data does nothing but tell of a controller    (handle_of_chatter)
    the desk's own heartbeat does not even do that                    (isAnonymous_heartbeat)
    what tells nothing of a host does not make it the aim             (spares_step)
    chatter changes nothing, in every session and at any time         (chatter_inert)
-/

namespace LightingDesk

/-! ## Datagrams -/

/-- Whether a datagram brings no data: it does not decode, or is a poll or the reply to one. -/
def IsChatter (bytes : List UInt8) : Prop :=
  ∀ p, Wire.decode (bytes.take maxDatagram) = .ok p → p.kind ≠ .data

/-- Whether a datagram does not tell where a controller is: it does not decode, or is a poll. -/
def IsAnonymous (bytes : List UInt8) : Prop :=
  ∀ p, Wire.decode (bytes.take maxDatagram) = .ok p → p.kind = .poll

/-- Whether whatever a datagram decodes to is as asked can be found out by decoding it. -/
instance decidableDecodes (bytes : List UInt8) (P : Packet → Prop) [DecidablePred P] :
    Decidable (∀ p, Wire.decode bytes = .ok p → P p) :=
  match Wire.decode bytes with
  | .error _ => .isTrue nofun
  | .ok p => decidable_of_iff (P p) ⟨fun h _ hp => Except.ok.inj hp ▸ h, fun h => h p rfl⟩

instance (bytes : List UInt8) : Decidable (IsChatter bytes) :=
  inferInstanceAs (Decidable (∀ _, _ → _))

instance (bytes : List UInt8) : Decidable (IsAnonymous bytes) :=
  inferInstanceAs (Decidable (∀ _, _ → _))

theorem IsAnonymous.isChatter {bytes : List UInt8} (h : IsAnonymous bytes) : IsChatter bytes := by
  intro p hp hk
  cases (h p hp).symm.trans hk

theorem isAnonymous_heartbeat (mode : UInt8) : IsAnonymous (Wire.heartbeat mode) := by
  intro p hp
  have hd : Wire.decode ((Wire.heartbeat mode).take maxDatagram) = .ok ⟨.poll, mode, .empty⟩ :=
    Wire.decode_encode_eq (c := ⟨.poll, mode, .empty⟩) rfl
  rw [hd] at hp
  cases hp
  rfl

/-! ## Heartbeats that are not for a host -/

namespace Heartbeat

/-- Whether heartbeats are for everyone or for another host. -/
def Spares (own : Ip) (h : Heartbeat) : Prop := h.aim.host? ≠ some own

variable {own : Ip} {h : Heartbeat}

theorem spares_send (hs : h.Spares own) (now : Nat) : (h.send now).1.Spares own := by
  unfold send sendAll
  cases ha : h.aim with
  | everyone => exact nofun
  | only host failures =>
    have hne : some host ≠ some own := by rwa [Spares, ha] at hs
    dsimp only
    split
    · exact hne
    · split
      · exact hne
      · exact nofun

theorem spares_pulse (hs : h.Spares own) (now : Nat) : (h.pulse now).Spares own := by
  unfold pulse
  split
  · exact hs
  · exact spares_send (h := { h with pacer := ⟨now⟩ }) hs now

theorem spares_wait (hs : h.Spares own) (stop : Nat) : (h.wait stop).Spares own := by
  unfold wait
  generalize h.pacer.instants h.interval stop = instants
  induction instants generalizing h with
  | nil => exact hs
  | cons now rest ih => exact ih (spares_pulse hs now)

theorem spares_observe (hs : h.Spares own) {host : Ip} (hne : host ≠ own) :
    (h.observe host).Spares own := by
  have hheard : some host ≠ some own := fun e => hne (Option.some.inj e)
  unfold Spares observe Aim.observe at *
  cases ha : h.aim with
  | everyone => exact hheard
  | only known failures =>
    rw [ha] at hs
    dsimp only
    split
    · exact hs
    · exact hheard

end Heartbeat

namespace Session

variable {σ : Type} [Sink σ]

/-! ## Drained sessions -/

theorem inbox_handle (s : Session σ) (r : Received) : (s.handle r).inbox = s.inbox := by
  obtain ⟨aim, hn⟩ := s.notice_eq r
  unfold handle
  dsimp only
  split <;> simp only [hn, announce]

/-- After every event the inbox is empty again, also in a session that fails. -/
theorem drained_step {s : Session σ} (drained : s.inbox.Drained) (e : Event) :
    (s.step e).inbox.Drained := by
  unfold step
  split
  · exact drained
  · cases e with
    | datagram bytes sender =>
      dsimp only
      cases hd : Wire.decode (bytes.take maxDatagram) with
      | error e =>
        rw [receive_of_error drained hd]
        exact drained.count _ _
      | ok p =>
        rw [receive_of_ok drained hd, inbox_handle]
        exact drained.count _ _
    | status => exact drained
    | wait span => exact drained

/-! ## Chatter -/

/-- A packet that is no data does nothing but tell where a controller is, whatever waits behind
it. -/
theorem handle_of_chatter (s : Session σ) {r : Received} (h : r.packet.kind ≠ .data) :
    s.handle r =
      { s with
        heartbeat :=
          if r.packet.kind = .pollReply then s.heartbeat.observe r.sender else s.heartbeat } := by
  obtain ⟨⟨kind, mode, payload⟩, host⟩ := r
  cases kind with
  | data => exact absurd rfl h
  | poll | pollReply => rfl

/-- How a session goes on that has heard nothing but chatter: it may aim elsewhere, and counts. -/
theorem step_of_chatter {s : Session σ} (drained : s.inbox.Drained) {bytes : List UInt8}
    (h : IsChatter bytes) (sender : Ip) : ∃ aim decoded rejected,
      s.step (.datagram bytes sender) =
        { s with
          heartbeat := { s.heartbeat with aim }
          inbox := { s.inbox with decoded, rejected } } ∧
      (aim = s.heartbeat.aim ∨ aim = s.heartbeat.aim.observe sender) ∧
      (IsAnonymous bytes → aim = s.heartbeat.aim) := by
  by_cases hf : s.failure = none
  · have hs : s.step (.datagram bytes sender) = s.receive bytes sender := by simp only [step, hf]
    rw [hs]
    cases hd : Wire.decode (bytes.take maxDatagram) with
    | error e =>
      exact ⟨s.heartbeat.aim, s.inbox.decoded, s.inbox.rejected + 1,
        receive_of_error drained hd sender, .inl rfl, fun _ => rfl⟩
    | ok p =>
      rw [receive_of_ok drained hd, handle_of_chatter _ (h p hd)]
      dsimp only
      by_cases hp : p.kind = .pollReply
      · refine ⟨s.heartbeat.aim.observe sender, s.inbox.decoded + 1, s.inbox.rejected, ?_, .inr rfl,
          fun unknown => ?_⟩
        · rw [if_pos hp]
          rfl
        · cases (unknown p hd).symm.trans hp
      · refine ⟨s.heartbeat.aim, s.inbox.decoded + 1, s.inbox.rejected, ?_, .inl rfl, fun _ => rfl⟩
        rw [if_neg hp]
  · obtain ⟨error, hf⟩ := Option.ne_none_iff_exists'.1 hf
    exact ⟨s.heartbeat.aim, s.inbox.decoded, s.inbox.rejected, step_of_failure hf _, .inl rfl,
      fun _ => rfl⟩

/-! ## Nobody aims at itself -/

omit [Sink σ] in
theorem spares_announce {s : Session σ} {own : Ip} (hs : s.heartbeat.Spares own) :
    s.announce.heartbeat.Spares own :=
  Heartbeat.spares_send (h := { s.heartbeat with mode := s.desk.controls.mode.code }) hs s.desk.now

theorem spares_handle {s : Session σ} {own : Ip} (hs : s.heartbeat.Spares own) {r : Received}
    (h : tellsController r.packet.kind = true → r.sender ≠ own) :
    (s.handle r).heartbeat.Spares own := by
  have heard : (s.notice r).heartbeat.Spares own := by
    unfold notice
    split
    · rename_i ht
      exact Heartbeat.spares_observe hs (h ht)
    · exact hs
  unfold handle
  dsimp only
  split
  · exact spares_announce (s := { s.notice r with desk := _ }) heard
  · exact heard
  · exact heard

/-- Heartbeats do not come to be for a host that has only sent what tells nothing of a
controller. -/
theorem spares_step {s : Session σ} (drained : s.inbox.Drained) {own : Ip}
    (hs : s.heartbeat.Spares own) {e : Event}
    (h : ∀ bytes, e = .datagram bytes own → IsAnonymous bytes) :
    (s.step e).heartbeat.Spares own := by
  unfold step
  split
  · exact hs
  · cases e with
    | datagram bytes sender =>
      dsimp only
      cases hd : Wire.decode (bytes.take maxDatagram) with
      | error e =>
        rw [receive_of_error drained hd]
        exact hs
      | ok p =>
        rw [receive_of_ok drained hd]
        refine spares_handle ?_ ?_
        · exact hs
        rintro ht rfl
        have hp : p.kind = .poll := h bytes rfl p hd
        rw [show tellsController p.kind = false by rw [hp]; rfl] at ht
        cases ht
    | status => exact hs
    | wait span => exact Heartbeat.spares_wait hs _

/-! ## Whole sessions -/

theorem drained_run {s : Session σ} (drained : s.inbox.Drained) (events : List Event) :
    (s.run events).inbox.Drained := by
  induction events generalizing s with
  | nil => exact drained
  | cons e rest ih => exact ih (drained_step drained e)

theorem spares_run {s : Session σ} (drained : s.inbox.Drained) {own : Ip}
    (hs : s.heartbeat.Spares own) {events : List Event}
    (h : ∀ bytes, .datagram bytes own ∈ events → IsAnonymous bytes) :
    (s.run events).heartbeat.Spares own := by
  induction events generalizing s with
  | nil => exact hs
  | cons e rest ih =>
    refine ih (drained_step drained e) (spares_step drained hs ?_) ?_
    · rintro bytes rfl
      exact h bytes (.head _)
    · exact fun bytes hb => h bytes (.tail _ hb)

/-- A session starts with nothing in its inbox and with heartbeats for everyone. -/
theorem drained_start {c : Config} {site : Site} {sink : σ} {dice : Nat → Color} {s : Session σ}
    (started : start c site sink dice = .ok s) :
    s.inbox.Drained ∧ ∀ own, s.heartbeat.Spares own := by
  obtain ⟨_, _, _, _, _, everyone, interval, -, -, hh, hb⟩ := start_eq started
  rw [hh, hb]
  refine ⟨⟨rfl, rfl, c.queueRoom_pos⟩, fun own => ?_⟩
  exact Heartbeat.spares_pulse (h := ⟨everyone, .everyone, _, interval, ⟨0⟩, false, _⟩) nofun 0

/-- Chatter is inert in every session, at any time and from anywhere.  It changes nothing about the
desk, its lights, its effect and its scenes, about the mode that the controller is told, the
heartbeats that have gone out and those that are due; only a reply to a poll may aim the heartbeats
at its sender.  A heartbeat of the desk itself, of whatever mode and wherever it seems to come from,
is counted and changes nothing at all, and nobody is aimed at who has sent only such heartbeats,
other polls and what does not decode. -/
theorem chatter_inert {c : Config} {site : Site} {sink : σ} {dice : Nat → Color}
    {first : Session σ} (started : start c site sink dice = .ok first) (events : List Event) :
    let s := first.run events
    (∀ bytes sender, IsChatter bytes → ∃ aim decoded rejected,
      s.step (.datagram bytes sender) =
        { s with
          heartbeat := { s.heartbeat with aim }
          inbox := { s.inbox with decoded, rejected } } ∧
      (aim = s.heartbeat.aim ∨ aim = s.heartbeat.aim.observe sender) ∧
      (IsAnonymous bytes → aim = s.heartbeat.aim)) ∧
    (∀ mode sender, ∃ decoded rejected, s.step (.datagram (Wire.heartbeat mode) sender) =
      { s with inbox := { s.inbox with decoded, rejected } }) ∧
    ∀ own, (∀ bytes, .datagram bytes own ∈ events →
        IsAnonymous bytes ∨ ∃ mode, bytes = Wire.heartbeat mode) →
      s.heartbeat.aim.host? ≠ some own := by
  intro s
  obtain ⟨drained, spares⟩ := drained_start started
  have later : s.inbox.Drained := drained_run drained events
  refine ⟨fun bytes sender h => step_of_chatter later h sender, fun mode sender => ?_,
    fun own h => ?_⟩
  · obtain ⟨aim, decoded, rejected, hs, -, same⟩ :=
      step_of_chatter later (isAnonymous_heartbeat mode).isChatter sender
    refine ⟨decoded, rejected, ?_⟩
    rw [hs, same (isAnonymous_heartbeat mode)]
  · refine spares_run drained (spares own) fun bytes hb => ?_
    obtain anonymous | ⟨mode, rfl⟩ := h bytes hb
    · exact anonymous
    · exact isAnonymous_heartbeat mode

/-- A party, before which the desk has heard its first heartbeat itself. -/
def echoed : List Event := .datagram (Wire.heartbeat Mode.idle.code) (.v4 10 0 0 1) :: invitation

/-- During a party, the desk hears another heartbeat of its own, a reply to a poll and noise. -/
theorem chatter_inert_party :
    let s := preset.run echoed
    s.heartbeat.aim = .only (.v4 10 0 0 7) 0 ∧
    (∃ decoded rejected, s.step (.datagram (Wire.heartbeat Mode.party.code) (.v4 10 0 0 1)) =
      { s with inbox := { s.inbox with decoded, rejected } }) ∧
    (∀ bytes ∈ [Wire.encode ⟨.pollReply, 0, .status ⟨90, 0, ""⟩⟩, [0x4a, 0x45]], ∃ aim,
      (s.step (.datagram bytes (.v4 10 0 0 8))).desk = s.desk ∧
      (s.step (.datagram bytes (.v4 10 0 0 8))).heartbeat = { s.heartbeat with aim }) ∧
    s.heartbeat.aim.host? ≠ some (.v4 10 0 0 1) := by
  intro s
  obtain ⟨inert, own, never⟩ := chatter_inert start_presets echoed
  refine ⟨rfl, own _ _, fun bytes hb => ?_, never _ fun bytes hb => ?_⟩
  · have chatter : IsChatter bytes := by
      revert bytes
      decide +kernel
    obtain ⟨aim, decoded, rejected, hs, -⟩ := inert bytes (.v4 10 0 0 8) chatter
    rw [hs]
    exact ⟨aim, rfl, rfl⟩
  · have hh : bytes = Wire.heartbeat Mode.idle.code := by simpa [echoed, invitation] using hb
    exact .inr ⟨_, hh⟩

end Session

end LightingDesk
