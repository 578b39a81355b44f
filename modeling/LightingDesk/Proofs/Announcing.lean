import LightingDesk.Proofs.Aiming
import LightingDesk.Proofs.Schedule
import LightingDesk.Session

/-!
# What the controller is told

The heartbeat keeps a mode of its own, which it learns only when the desk asks for a heartbeat.  In
a session in which every datagram can be sent and every effect stops, that mode is the desk's after
each event: no packet changes the mode of the desk without asking.  Heartbeats that are asked for do
not move the periodic ones.

    a packet asks for a heartbeat iff it changes the mode or strays   (answer_handle)
    what goes out by itself goes out at multiples of the interval     (upTo_append_instants)
    every event leaves heartbeat and desk in step                     (emits_step)
    the controller is always told the right mode                      (controller_told)
-/

namespace LightingDesk

/-! ## Sending -/

namespace Pacer

/-- The multiples of an interval up to an instant. -/
def upTo (interval stop : Nat) : List Nat := (List.range (stop / interval + 1)).map (· * interval)

theorem last_foldl_instants (p : Pacer) (interval stop : Nat) :
    (p.instants interval stop).getLastD p.last = (p.advance interval stop).last := by
  unfold instants advance
  cases hd : p.due interval stop with
  | zero => simp
  | succ n =>
    rw [List.range_succ, List.map_append, List.map_singleton, List.getLastD_concat]

/-- How often the interval fits between one of its multiples and a later instant. -/
theorem due_of_multiple {p : Pacer} {interval now stop : Nat}
    (hp : p.last = now / interval * interval) (h : now ≤ stop) :
    now / interval + p.due interval stop = stop / interval := by
  have hle : now / interval ≤ stop / interval := Nat.div_le_div_right h
  unfold due
  rw [hp, Nat.mul_comm, Nat.sub_mul_div]
  omega

theorem upTo_append_instants {p : Pacer} {interval now stop : Nat}
    (hp : p.last = now / interval * interval) (h : now ≤ stop) :
    upTo interval now ++ p.instants interval stop = upTo interval stop := by
  unfold upTo instants
  have hr : List.range (stop / interval + 1) = List.range (now / interval + 1) ++
      (List.range (p.due interval stop)).map (now / interval + 1 + ·) := by
    rw [← due_of_multiple hp h, Nat.add_right_comm, List.range_add]
  rw [hr, List.map_append, List.map_map]
  congr 1
  refine List.map_congr_left fun k _ => ?_
  rw [hp, Function.comp_apply, ← Nat.add_mul, Nat.add_assoc, Nat.add_comm 1 k]

theorem last_advance {p : Pacer} {interval now stop : Nat}
    (hp : p.last = now / interval * interval) (h : now ≤ stop) :
    (p.advance interval stop).last = stop / interval * interval := by
  rw [← due_of_multiple hp h, Nat.add_mul, ← hp]
  rfl

end Pacer

namespace Heartbeat

variable {h h' h'' : Heartbeat} {out out' : List Datagram}

/-- How heartbeats go on that have sent datagrams, oldest first, none of which has failed. -/
structure Sends (h : Heartbeat) (out : List Datagram) (h' : Heartbeat) : Prop where
  mode_eq : h'.mode = h.mode
  interval_eq : h'.interval = h.interval
  failed_eq : h'.failed = h.failed
  takes_eq : h'.post.takes = h.post.takes
  sent_eq : h'.post.sent = out.reverse ++ h.post.sent
  bytes_eq : ∀ d ∈ out, d.bytes = Wire.heartbeat h.mode

theorem Sends.refl (h : Heartbeat) : h.Sends [] h := ⟨rfl, rfl, rfl, rfl, rfl, nofun⟩

theorem Sends.trans (first : h.Sends out h') (later : h'.Sends out' h'') :
    h.Sends (out ++ out') h'' where
  mode_eq := later.mode_eq.trans first.mode_eq
  interval_eq := later.interval_eq.trans first.interval_eq
  failed_eq := later.failed_eq.trans first.failed_eq
  takes_eq := later.takes_eq.trans first.takes_eq
  sent_eq := by rw [later.sent_eq, first.sent_eq, List.reverse_append, List.append_assoc]
  bytes_eq d hd := by
    rcases List.mem_append.1 hd with hd | hd
    · exact first.bytes_eq d hd
    · rw [later.bytes_eq d hd, first.mode_eq]

theorem Sends.takes_all (sends : h.Sends out h') (takes : ∀ n a, h.post.takes n a = true)
    (n : Nat) (a : Address) : h'.post.takes n a = true := by
  rw [sends.takes_eq]
  exact takes n a

/-- A heartbeat that can be sent is sent once, whomever it is for. -/
theorem sends_send (takes : ∀ n a, h.post.takes n a = true) (now : Nat) :
    (h.send now).2 = true ∧ (h.send now).1.pacer = h.pacer ∧
      ∃ d, d.instant = now ∧ h.Sends [d] (h.send now).1 := by
  have taken : ∀ target bytes, h.post.send now target bytes =
      ({ h.post with
          attempts := h.post.attempts + 1
          sent := ⟨now, target, bytes⟩ :: h.post.sent }, true) :=
    fun target _ => if_pos (takes h.post.attempts target)
  unfold send sendAll
  cases h.aim with
  | everyone =>
    simp only [taken]
    refine ⟨trivial, trivial, _, rfl, rfl, rfl, rfl, rfl, rfl, ?_⟩
    exact fun d hd => by rw [List.mem_singleton.1 hd]
  | only host failures =>
    simp only [taken, if_true]
    refine ⟨trivial, trivial, _, rfl, rfl, rfl, rfl, rfl, rfl, ?_⟩
    exact fun d hd => by rw [List.mem_singleton.1 hd]

theorem sends_pulse (going : h.failed = false) (takes : ∀ n a, h.post.takes n a = true)
    (now : Nat) : (h.pulse now).pacer.last = now ∧
      ∃ d, d.instant = now ∧ h.Sends [d] (h.pulse now) := by
  obtain ⟨ok, hp, d, hd, sends⟩ := sends_send (h := { h with pacer := ⟨now⟩ }) takes now
  rw [pulse_going (by simp [going]), ok]
  refine ⟨congrArg Pacer.last hp, d, hd, ?_⟩
  exact ⟨sends.mode_eq, sends.interval_eq, going.symm, sends.takes_eq, sends.sent_eq,
    sends.bytes_eq⟩

/-- One datagram goes out for each instant. -/
theorem sends_pulses (going : h.failed = false) (takes : ∀ n a, h.post.takes n a = true)
    (instants : List Nat) : (instants.foldl pulse h).pacer.last = instants.getLastD h.pacer.last ∧
      ∃ out, out.map Datagram.instant = instants ∧ h.Sends out (instants.foldl pulse h) := by
  induction instants generalizing h with
  | nil => exact ⟨rfl, [], rfl, .refl h⟩
  | cons t rest ih =>
    obtain ⟨hp, d, hd, first⟩ := sends_pulse going takes t
    obtain ⟨hlast, out, hout, later⟩ :=
      ih (first.failed_eq.trans going) (first.takes_all takes)
    rw [hp] at hlast
    refine ⟨?_, d :: out, by rw [List.map_cons, hd, hout], first.trans later⟩
    rw [List.getLastD_cons]
    exact hlast

theorem sends_wait (going : h.failed = false) (takes : ∀ n a, h.post.takes n a = true)
    (stop : Nat) : (h.wait stop).pacer.last = (h.pacer.advance h.interval stop).last ∧
      ∃ out, out.map Datagram.instant = h.pacer.instants h.interval stop ∧
        h.Sends out (h.wait stop) := by
  rw [← Pacer.last_foldl_instants]
  exact sends_pulses going takes _

end Heartbeat

/-! ## What a packet asks for -/

/-- Whether a packet is data that a mode has no use for. -/
def Packet.strays (mode : Mode) (p : Packet) : Bool :=
  match p.kind, p.payload with
  | .data, .userAction _ => false
  | .data, .joystick _ _ => mode ≠ .wheel
  | .data, .gyro _ _ _ => mode ≠ .party ∧ mode ≠ .scary
  | .data, _ => true
  | _, _ => false

variable {σ : Type} [Sink σ]

/-- A packet asks for a heartbeat exactly when it changes the mode, or strays. -/
theorem Desk.answer_handle {d : Desk σ} {p : Packet} {asks : Bool}
    (h : (d.handle p).2 = .ok asks) : asks = true ↔
      (d.handle p).1.controls.mode ≠ d.controls.mode ∨ p.strays d.controls.mode = true := by
  match p with
  | ⟨.data, mode, .userAction code⟩ =>
    cases ha : d.asked ⟨.data, mode, .userAction code⟩ with
    | none =>
      simp only [handle, ha] at h ⊢
      cases h
      simp [Packet.strays]
    | some m =>
      simp only [handle, ha] at h ⊢
      cases hc : (d.carryOut m).2 with
      | error e =>
        rw [hc] at h
        cases h
      | ok u =>
        rw [hc] at h
        cases h
        simp [Packet.strays]
  | ⟨.data, mode, .joystick x y⟩ =>
    by_cases hm : d.controls.mode = .wheel
    · simp only [handle, if_pos hm] at h ⊢
      cases h
      simp [Packet.strays, hm, paint, play]
    · simp only [handle, if_neg hm] at h ⊢
      cases h
      simp [Packet.strays, hm]
  | ⟨.data, mode, .gyro x y z⟩ =>
    by_cases hm : d.controls.mode = .party ∨ d.controls.mode = .scary
    · simp only [handle, if_pos hm] at h ⊢
      cases h
      rcases hm with hm | hm <;> simp [Packet.strays, hm, follow, play]
    · simp only [handle, if_neg hm] at h ⊢
      cases h
      simpa [Packet.strays] using hm
  | ⟨.data, mode, .status _⟩ | ⟨.data, mode, .empty⟩ =>
    cases h
    simp [Packet.strays]
  | ⟨.poll, mode, payload⟩ | ⟨.pollReply, mode, payload⟩ =>
    cases h
    simp [Packet.strays, handle]

/-! ## Receiving -/

/-- Whether nothing waits in an inbox that has room. -/
structure Inbox.Drained (b : Inbox) : Prop where
  queue_eq : b.queue = []
  held_eq : b.held = none
  room : 0 < b.capacity

theorem Inbox.Drained.count {b : Inbox} (h : b.Drained) (decoded rejected : Nat) :
    { b with decoded, rejected }.Drained := ⟨h.queue_eq, h.held_eq, h.room⟩

namespace Session

theorem receive_of_error {s : Session σ} (drained : s.inbox.Drained) {bytes : List UInt8}
    {e : DecodeError} (h : Wire.decode (bytes.take maxDatagram) = .error e) (sender : Ip) :
    s.receive bytes sender =
      { s with inbox := { s.inbox with rejected := s.inbox.rejected + 1 } } := by
  obtain ⟨hq, hh, hr⟩ := drained
  simp [receive, serve, Inbox.receive, Inbox.offer, Inbox.isOpen, Inbox.take, hq, hh, h]

/-- A packet that is received is handled at once. -/
theorem receive_of_ok {s : Session σ} (drained : s.inbox.Drained) {bytes : List UInt8} {p : Packet}
    (h : Wire.decode (bytes.take maxDatagram) = .ok p) (sender : Ip) :
    s.receive bytes sender =
      handle { s with inbox := { s.inbox with decoded := s.inbox.decoded + 1 } } ⟨p, sender⟩ := by
  obtain ⟨hq, hh, hr⟩ := drained
  simp [receive, serve, Inbox.receive, Inbox.offer, Inbox.isOpen, Inbox.take, hq, hh, hr, h]

/-! ## One event -/

/-- Heartbeat and desk are in step: the heartbeat tells the desk's mode, and has sent the periodic
heartbeats that were due. -/
structure InStep (interval : Nat) (s : Session σ) : Prop where
  mode_eq : s.heartbeat.mode = s.desk.controls.mode.code
  going : s.heartbeat.failed = false
  takes : ∀ n a, s.heartbeat.post.takes n a = true
  interval_eq : s.heartbeat.interval = interval
  last_eq : s.heartbeat.pacer.last = s.desk.now / interval * interval
  drained : s.inbox.Drained
  sound : s.desk.controls.Sound s.desk.rig

/-- How a session goes on in step while datagrams go out, oldest first, that tell its mode. -/
structure Emits (interval : Nat) (s : Session σ) (out : List Datagram) (s' : Session σ) : Prop where
  inStep : InStep interval s'
  sent_eq : s'.heartbeat.post.sent = out.reverse ++ s.heartbeat.post.sent
  bytes_eq : ∀ d ∈ out, d.bytes = Wire.heartbeat s'.desk.controls.mode.code

/-- The session after the desk has handled a packet, with heartbeats for whoever has been heard. -/
def moved (s : Session σ) (p : Packet) (aim : Aim) : Session σ :=
  { s with desk := (s.desk.handle p).1, heartbeat := { s.heartbeat with aim } }

omit [Sink σ] in
theorem notice_eq (s : Session σ) (r : Received) :
    ∃ aim, s.notice r = { s with heartbeat := { s.heartbeat with aim } } := by
  unfold notice
  split
  · exact ⟨s.heartbeat.aim.observe r.sender, rfl⟩
  · exact ⟨s.heartbeat.aim, rfl⟩

theorem handle_of_ok {s : Session σ} {r : Received} {asks : Bool}
    (h : (s.desk.handle r.packet).2 = .ok asks) : ∃ aim,
      s.handle r = if asks = true then (s.moved r.packet aim).announce
        else s.moved r.packet aim := by
  obtain ⟨aim, hn⟩ := s.notice_eq r
  refine ⟨aim, ?_⟩
  cases asks <;> simp only [handle, hn, h] <;> rfl

omit [Sink σ] in
/-- Once the mode has been announced, the heartbeat knows it. -/
theorem emits_announce {interval : Nat} {s : Session σ}
    (h : InStep interval { s with
      heartbeat := { s.heartbeat with mode := s.desk.controls.mode.code } }) :
    ∃ d, Emits interval s [d] s.announce := by
  obtain ⟨-, hp, d, -, sends⟩ := Heartbeat.sends_send h.takes s.desk.now
  refine ⟨d, ?_, sends.sent_eq, sends.bytes_eq⟩
  exact ⟨sends.mode_eq, sends.failed_eq.trans h.going, sends.takes_all h.takes,
    sends.interval_eq.trans h.interval_eq, (congrArg Pacer.last hp).trans h.last_eq, h.drained,
    h.sound⟩

/-- A packet is answered with a heartbeat exactly when it changes the mode, or strays. -/
theorem emits_handle {interval : Nat} {s : Session σ} (h : InStep interval s) {r : Received}
    (fine : (s.handle r).failure = none) : (s.handle r).desk.now = s.desk.now ∧
      ∃ out, Emits interval s out (s.handle r) ∧ out.length ≤ 1 ∧ (out ≠ [] ↔
        (s.handle r).desk.controls.mode ≠ s.desk.controls.mode ∨
          r.packet.strays s.desk.controls.mode = true) := by
  have hnow : (s.desk.handle r.packet).1.now = s.desk.now :=
    (Desk.atOnce_packet h.sound r.packet).now_eq
  have hlast : s.heartbeat.pacer.last = (s.desk.handle r.packet).1.now / interval * interval := by
    rw [hnow]
    exact h.last_eq
  have hsound : (s.desk.handle r.packet).1.controls.Sound (s.desk.handle r.packet).1.rig :=
    Desk.sound_step s.desk (.packet r.packet) h.sound
  cases ha : (s.desk.handle r.packet).2 with
  | error e =>
    have hfail : (s.handle r).failure = some (.effect e) := by
      unfold handle
      simp only [ha]
    rw [hfail] at fine
    cases fine
  | ok asks =>
    have asked := Desk.answer_handle ha
    obtain ⟨aim, hs⟩ := handle_of_ok ha
    rw [hs]
    cases asks with
    | false =>
      -- a heartbeat that has not been asked for is not needed: the mode is the same
      have hmode : (s.desk.handle r.packet).1.controls.mode = s.desk.controls.mode := by
        by_contra hne
        exact absurd (asked.2 (.inl hne)) (by decide)
      refine ⟨hnow, [], ⟨?_, rfl, nofun⟩, Nat.zero_le 1, ?_⟩
      · exact ⟨h.mode_eq.trans (congrArg Mode.code hmode.symm), h.going, h.takes, h.interval_eq,
          hlast, h.drained, hsound⟩
      · exact ⟨fun hn => absurd rfl hn, fun hc => absurd (asked.2 hc) (by decide)⟩
    | true =>
      obtain ⟨d, emits⟩ := emits_announce (s := s.moved r.packet aim)
        ⟨rfl, h.going, h.takes, h.interval_eq, hlast, h.drained, hsound⟩
      refine ⟨hnow, [d], ⟨emits.inStep, emits.sent_eq, emits.bytes_eq⟩, Nat.le_refl 1, ?_⟩
      exact ⟨fun _ => asked.1 rfl, fun _ => by simp⟩

theorem emits_receive {interval : Nat} {s : Session σ} (h : InStep interval s)
    (bytes : List UInt8) (sender : Ip) (fine : (s.receive bytes sender).failure = none) :
    (s.receive bytes sender).desk.now = s.desk.now ∧
      ∃ out, Emits interval s out (s.receive bytes sender) ∧ out.length ≤ 1 ∧
        (out ≠ [] ↔ ∃ p, Wire.decode (bytes.take maxDatagram) = .ok p ∧
          ((s.receive bytes sender).desk.controls.mode ≠ s.desk.controls.mode ∨
            p.strays s.desk.controls.mode = true)) := by
  cases hd : Wire.decode (bytes.take maxDatagram) with
  | error e =>
    rw [receive_of_error h.drained hd sender]
    have counted := h.drained.count s.inbox.decoded (s.inbox.rejected + 1)
    exact ⟨rfl, [], ⟨{ h with drained := counted }, rfl, nofun⟩, Nat.zero_le 1, by simp⟩
  | ok p =>
    rw [receive_of_ok h.drained hd sender] at fine ⊢
    have counted : InStep interval
        { s with inbox := { s.inbox with decoded := s.inbox.decoded + 1 } } :=
      { h with drained := h.drained.count (s.inbox.decoded + 1) s.inbox.rejected }
    obtain ⟨hnow, out, emits, one, iff⟩ := emits_handle counted fine
    exact ⟨hnow, out, ⟨emits.inStep, emits.sent_eq, emits.bytes_eq⟩, one, iff.trans (by simp)⟩

/-- While time passes, exactly the periodic heartbeats go out. -/
theorem emits_pass {interval : Nat} {s : Session σ} (h : InStep interval s) (span : Nat) :
    (s.pass span).desk.controls.mode = s.desk.controls.mode ∧
      ∃ out, Emits interval s out (s.pass span) ∧
        Pacer.upTo interval s.desk.now ++ out.map Datagram.instant =
          Pacer.upTo interval (s.pass span).desk.now := by
  have hmode : (s.pass span).desk.controls.mode = s.desk.controls.mode :=
    congrArg Controls.mode (s.desk.controls_wait span)
  have hnow : (s.pass span).desk.now = s.desk.now + span := s.desk.now_wait span
  obtain ⟨hlast, out, hout, sends⟩ :=
    Heartbeat.sends_wait h.going h.takes (s.desk.now + span)
  rw [h.interval_eq] at hlast hout
  have hle : s.desk.now ≤ s.desk.now + span := Nat.le_add_right _ _
  refine ⟨hmode, out, ⟨?_, sends.sent_eq, ?_⟩, ?_⟩
  · refine ⟨?_, sends.failed_eq.trans h.going, sends.takes_all h.takes,
      sends.interval_eq.trans h.interval_eq, ?_, h.drained,
      Desk.sound_step s.desk (.wait span) h.sound⟩
    · rw [hmode]
      exact sends.mode_eq.trans h.mode_eq
    · rw [hnow]
      exact hlast.trans (Pacer.last_advance h.last_eq hle)
  · intro d hd
    rw [sends.bytes_eq d hd, h.mode_eq, hmode]
  · rw [hout, hnow]
    exact Pacer.upTo_append_instants h.last_eq hle

/-- What goes out while something happens, oldest first. -/
def outgoing (s : Session σ) (e : Event) : List Datagram :=
  ((s.step e).heartbeat.post.sent.take
    ((s.step e).heartbeat.post.sent.length - s.heartbeat.post.sent.length)).reverse

theorem outgoing_eq {s : Session σ} {e : Event} {out : List Datagram}
    (h : (s.step e).heartbeat.post.sent = out.reverse ++ s.heartbeat.post.sent) :
    s.outgoing e = out := by
  simp [outgoing, h]

/-- Whether datagrams are what has to go out while something happens that leads from one state of a
session to another.  A datagram that is received is answered with one heartbeat, and only if its
packet has changed the mode or strays; a status request is not; and while time passes, heartbeats go
out at the multiples of the interval that are reached. -/
def Called (interval : Nat) (s : Session σ) (out : List Datagram) (s' : Session σ) : Event → Prop
  | .datagram bytes _ => s'.desk.now = s.desk.now ∧ out.length ≤ 1 ∧
    (out ≠ [] ↔ ∃ p, Wire.decode (bytes.take maxDatagram) = .ok p ∧
      (s'.desk.controls.mode ≠ s.desk.controls.mode ∨ p.strays s.desk.controls.mode = true))
  | .status => s' = s ∧ out = []
  | .wait _ => s'.desk.controls.mode = s.desk.controls.mode ∧
    Pacer.upTo interval s.desk.now ++ out.map Datagram.instant = Pacer.upTo interval s'.desk.now

theorem emits_step {interval : Nat} {s : Session σ} (h : InStep interval s)
    (hf : s.failure = none) {e : Event} (fine : (s.step e).failure = none) :
    Emits interval s (s.outgoing e) (s.step e) ∧
      Called interval s (s.outgoing e) (s.step e) e := by
  cases e with
  | datagram bytes sender =>
    have hs : s.step (.datagram bytes sender) = s.receive bytes sender := by simp only [step, hf]
    rw [hs] at fine
    obtain ⟨hnow, out, emits, facts⟩ := emits_receive h bytes sender fine
    rw [← hs] at hnow emits facts
    rw [outgoing_eq emits.sent_eq]
    exact ⟨emits, hnow, facts⟩
  | status =>
    have hs : s.step .status = s := by simp only [step, hf]
    have ho : s.outgoing .status = [] := outgoing_eq (by rw [hs]; rfl)
    rw [hs, ho]
    exact ⟨⟨h, rfl, nofun⟩, rfl, rfl⟩
  | wait span =>
    have hs : s.step (.wait span) = s.pass span := by simp only [step, hf]
    obtain ⟨hmode, out, emits, periodic⟩ := emits_pass h span
    rw [← hs] at hmode emits periodic
    rw [outgoing_eq emits.sent_eq]
    exact ⟨emits, hmode, periodic⟩

/-! ## Whole sessions -/

theorem failure_run {s : Session σ} {events : List Event} (h : (s.run events).failure = none) :
    s.failure = none := by
  induction events generalizing s with
  | nil => exact h
  | cons e rest ih =>
    have hs : (s.step e).failure = none := ih h
    cases hf : s.failure with
    | none => rfl
    | some error =>
      rw [step_of_failure hf, hf] at hs
      cases hs

theorem inStep_run {interval : Nat} {s : Session σ} (h : InStep interval s) {events : List Event}
    (fine : (s.run events).failure = none) : InStep interval (s.run events) := by
  induction events generalizing s with
  | nil => exact h
  | cons e rest ih =>
    have hs : (s.step e).failure = none :=
      failure_run (show ((s.step e).run rest).failure = none from fine)
    have hf : s.failure = none := failure_run (show (s.run [e]).failure = none from hs)
    exact ih (emits_step h hf hs).1.inStep fine

/-- The heartbeats that go out by themselves while things happen, oldest first. -/
def periodic (s : Session σ) : List Event → List Datagram
  | [] => []
  | .wait span :: rest => s.outgoing (.wait span) ++ (s.step (.wait span)).periodic rest
  | e :: rest => (s.step e).periodic rest

theorem upTo_append_periodic {interval : Nat} {s : Session σ} (h : InStep interval s)
    {events : List Event} (fine : (s.run events).failure = none) :
    Pacer.upTo interval s.desk.now ++ (s.periodic events).map Datagram.instant =
      Pacer.upTo interval (s.run events).desk.now := by
  induction events generalizing s with
  | nil => simp [periodic, run]
  | cons e rest ih =>
    have hs : (s.step e).failure = none :=
      failure_run (show ((s.step e).run rest).failure = none from fine)
    have hf : s.failure = none := failure_run (show (s.run [e]).failure = none from hs)
    obtain ⟨emits, facts⟩ := emits_step h hf hs
    have later := ih emits.inStep fine
    cases e with
    | datagram bytes sender =>
      rw [facts.1] at later
      exact later
    | status =>
      rw [facts.1] at later
      simpa only [periodic, run, List.foldl_cons, facts.1] using later
    | wait span =>
      rw [periodic, List.map_append, ← List.append_assoc, facts.2]
      exact later

/-! ## From the start -/

theorem ok_of_bind {ε α β : Type} {x : Except ε α} {f : α → Except ε β} {b : β}
    (h : x >>= f = .ok b) : ∃ a, x = .ok a ∧ f a = .ok b := by
  cases x with
  | error e => cases h
  | ok a => exact ⟨a, rfl, h⟩

theorem ok_of_mapError {ε ε' α : Type} {x : Except ε α} {f : ε → ε'} {a : α}
    (h : x.mapError f = .ok a) : x = .ok a := by
  cases x with
  | error e => cases h
  | ok b => exact congrArg _ (Except.ok.inj h)

/-- What a session that has just been started consists of. -/
theorem start_eq {c : Config} {site : Site} {sink : σ} {dice : Nat → Color} {s : Session σ}
    (h : start c site sink dice = .ok s) :
    ∃ rig dark scenes delay stopLimit everyone interval,
      c.beatInterval = .ok interval ∧
      s.desk = Desk.start rig dark scenes delay stopLimit dice ∧
      s.heartbeat = Heartbeat.start everyone interval Mode.idle.code 0 (Post.fresh site.takes) ∧
      s.inbox = Inbox.empty c.queueRoom := by
  unfold start at h
  obtain ⟨rig, -, h⟩ := ok_of_bind h
  obtain ⟨dark, -, h⟩ := ok_of_bind h
  obtain ⟨scenes, -, h⟩ := ok_of_bind h
  obtain ⟨delay, -, h⟩ := ok_of_bind h
  obtain ⟨stopLimit, -, h⟩ := ok_of_bind h
  obtain ⟨home, -, h⟩ := ok_of_bind h
  split at h
  · cases h
  · obtain ⟨everyone, -, h⟩ := ok_of_bind h
    obtain ⟨interval, hi, h⟩ := ok_of_bind h
    cases h
    exact ⟨rig, dark, scenes, delay, stopLimit, everyone, interval, ok_of_mapError hi, rfl, rfl,
      rfl⟩

theorem inStep_start {c : Config} {site : Site} {sink : σ} {dice : Nat → Color} {s : Session σ}
    (started : start c site sink dice = .ok s) (takes : ∀ n a, site.takes n a = true)
    {interval : Nat} (every : c.beatInterval = .ok interval) :
    InStep interval s ∧ s.desk.now = 0 ∧
      ∃ d : Datagram, s.heartbeat.post.sent = [d] ∧ d.instant = 0 ∧
        d.bytes = Wire.heartbeat s.desk.controls.mode.code := by
  obtain ⟨rig, dark, scenes, delay, stopLimit, everyone, interval', hi, hd, hh, hb⟩ :=
    start_eq started
  rw [every] at hi
  cases hi
  obtain ⟨hp, d, hd', sends⟩ := Heartbeat.sends_pulse
    (h := ⟨everyone, .everyone, Mode.idle.code, interval, ⟨0⟩, false, Post.fresh site.takes⟩)
    rfl takes 0
  have hfirst : Heartbeat.start everyone interval Mode.idle.code 0 (Post.fresh site.takes) =
    Heartbeat.pulse ⟨everyone, .everyone, Mode.idle.code, interval, ⟨0⟩, false,
      Post.fresh site.takes⟩ 0 := rfl
  rw [← hfirst, ← hh] at hp sends
  have hmode : s.desk.controls.mode = .idle := by rw [hd]; rfl
  have hnow : s.desk.now = 0 := by rw [hd]; rfl
  refine ⟨⟨?_, sends.failed_eq, sends.takes_all takes, sends.interval_eq, ?_, ?_, ?_⟩, hnow, d,
    sends.sent_eq, hd', ?_⟩
  · rw [hmode]
    exact sends.mode_eq
  · rw [hp, hnow, Nat.zero_div, Nat.zero_mul]
  · rw [hb]
    exact ⟨rfl, rfl, c.queueRoom_pos⟩
  · rw [hd]
    exact Controls.sound_start rig delay
  · rw [hmode]
    exact sends.bytes_eq d (List.mem_singleton_self d)

/-- Where every datagram can be sent, and as long as every effect stops, the controller is always
told the right mode.  After any events the heartbeat has the desk's mode, and whatever goes out next
tells the mode that the desk has then.  What goes out is what is called for, and the heartbeats that
go out by themselves do so at the multiples of the interval, counted from the start.  Zero is no
interval and has the start as its only multiple: where heartbeats would have to follow each other
without a pause, none but the first goes out by itself. -/
theorem controller_told {c : Config} {site : Site} {sink : σ} {dice : Nat → Color}
    {first : Session σ} (started : start c site sink dice = .ok first)
    (takes : ∀ n a, site.takes n a = true) {interval : Nat}
    (every : c.beatInterval = .ok interval) (events : List Event)
    (fine : (first.run events).failure = none) :
    let s := first.run events
    s.heartbeat.mode = s.desk.controls.mode.code ∧
    (∀ d ∈ first.heartbeat.post.sent, d.bytes = Wire.heartbeat first.desk.controls.mode.code) ∧
    (first.heartbeat.post.sent ++ first.periodic events).map Datagram.instant =
      (List.range (s.desk.now / interval + 1)).map (· * interval) ∧
    ∀ e, (s.step e).failure = none →
      (∀ d ∈ s.outgoing e, d.bytes = Wire.heartbeat (s.step e).desk.controls.mode.code) ∧
      Called interval s (s.outgoing e) (s.step e) e := by
  intro s
  obtain ⟨inStep, hnow, d, hsent, hinstant, hbytes⟩ := inStep_start started takes every
  have later : InStep interval s := inStep_run inStep fine
  refine ⟨later.mode_eq, ?_, ?_, ?_⟩
  · rw [hsent]
    intro d' hd'
    rw [List.mem_singleton.1 hd']
    exact hbytes
  · have hfirst : Pacer.upTo interval first.desk.now = [0] := by simp [Pacer.upTo, hnow]
    have periodic := upTo_append_periodic inStep fine
    rw [hfirst] at periodic
    rw [hsent, List.map_append, List.map_singleton, hinstant]
    exact periodic
  · intro e ok
    obtain ⟨emits, called⟩ := emits_step later fine ok
    exact ⟨emits.bytes_eq, called⟩

/-- A configuration that leaves everything as it is preset. -/
def presets : Config := ⟨none, none, none, none, none, none, none, none, .dummy, []⟩

/-- A place where every datagram can be sent. -/
def openSite : Site := ⟨.empty [], fun _ => none, fun _ => true, fun _ _ => true⟩

/-- The session that these presets start. -/
def preset : Session Frame where
  desk := Desk.start [] Frame.dark (.inMemory []) (Span.ofMillis 100) (Span.ofSeconds 2)
    fun _ => .white
  heartbeat := Heartbeat.start ⟨.v4 255 255 255 255, linkPort, 0⟩ (Span.ofSeconds 3)
    Mode.idle.code 0 (.fresh fun _ _ => true)
  inbox := .empty 64
  failure := none

/-- The controller asks for a party between two heartbeats. -/
def invitation : List Event :=
  [.wait 3500000000, .datagram (magic ++ [0x33, 0, 0x13, 0x31]) (.v4 10 0 0 7), .wait 3500000000]

/-- The controller pushes its joystick to the right. -/
def pushRight : Event :=
  .datagram (magic ++ [0x33, 0, 0x23, 0, 100, 0, 0, 0, 0, 0, 0, 0]) (.v4 10 0 0 7)

theorem rig_presets : presets.rig = .ok [] := by
  have h : Plot.arrange [] = .ok [] := by
    unfold Plot.arrange
    rw [List.mergeSort_nil]
    rfl
  change (Plot.arrange []).mapError ConfigError.fixture = .ok []
  rw [h]
  rfl

theorem start_presets : start presets openSite Frame.dark (fun _ => .white) = .ok preset := by
  have dark : darkened openSite presets.output Frame.dark = .ok Frame.dark :=
    congrArg Except.ok Frame.grounded_dark
  unfold start
  rw [rig_presets, dark]
  rfl

theorem controller_told_party :
    let s := preset.run invitation
    s.desk.controls.mode = .party ∧ s.heartbeat.mode = Mode.party.code ∧
      (preset.heartbeat.post.sent ++ preset.periodic invitation).map Datagram.instant =
        [0, Span.ofSeconds 3, Span.ofSeconds 6] ∧
      s.outgoing pushRight ≠ [] := by
  intro s
  have strays : Wire.decode ((magic ++ [0x33, 0, 0x23, 0, 100, 0, 0, 0, 0, 0, 0, 0]).take
      maxDatagram) = .ok ⟨.data, 0, .joystick 100 0⟩ := by decide +kernel
  obtain ⟨mode, -, instants, next⟩ :=
    controller_told start_presets (fun _ _ => rfl) rfl invitation rfl
  obtain ⟨-, -, -, answered⟩ := next pushRight rfl
  exact ⟨rfl, mode, instants, answered.2 ⟨_, strays, .inr rfl⟩⟩

end Session

end LightingDesk
