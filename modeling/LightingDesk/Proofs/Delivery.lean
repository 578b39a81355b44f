import LightingDesk.Link.Intake
import Mathlib.Data.List.Induction

/-!
# What an intake delivers

Whatever order the intake, the desk and whoever cancels take their steps in, no packet is lost,
doubled or overtaken on its way through the inbox, and an intake that is cancelled leaves behind at
most the one packet that it could not put into a full queue.

    a step keeps the accounts of an intake                           (accounts_step)
    so every run keeps them                                          (accounts_run)
    what an intake gives up, it has held before a full queue         (gaveUp_run)
    an intake that has ended changes no more what it has delivered   (ended_run)
    an intake that goes on can still deliver everything              (exists_delivery)
    what has been delivered at any moment                            (delivers_in_order)
-/

namespace LightingDesk

namespace Inbox

variable {α : Type}

theorem receive_of_open {b : Inbox α} (h : b.held = none) (bytes : List UInt8) (sender : α) :
    b.receive bytes sender =
      match Intake.packet? (bytes, sender) with
      | some r => { b with held := some r, decoded := b.decoded + 1 }
      | none => { b with rejected := b.rejected + 1 } := by
  have hopen : b.isOpen = true := by rw [isOpen, h]; rfl
  rw [receive, if_pos hopen, Intake.packet?]
  cases Wire.decode (bytes.take maxDatagram) <;> rfl

theorem offer_eq {b : Inbox α} {r : Received α} (h : b.held = some r)
    (room : b.queue.length < b.capacity) :
    b.offer = { b with queue := b.queue ++ [r], held := none } := by
  rw [offer, h]
  exact if_pos room

end Inbox

namespace Intake

variable {α : Type} {capacity : Nat} {datagrams : List (List UInt8 × α)} {i : Intake α}

theorem run_append (i : Intake α) (before after : List IntakeStep) :
    i.run (before ++ after) = (i.run before).run after := List.foldl_append

theorem run_concat (i : Intake α) (steps : List IntakeStep) (s : IntakeStep) :
    i.run (steps ++ [s]) = (i.run steps).step s := i.run_append steps [s]

/-- Whether a datagram is no packet. -/
def isRefused (datagram : List UInt8 × α) : Bool := (packet? datagram).isNone

theorem packets_concat (before : List (List UInt8 × α)) (last : List UInt8 × α) :
    packets (before ++ [last]) = packets before ++ (packet? last).toList := by
  rw [packets, List.filterMap_append]
  cases h : packet? last <;> simp [packets, h]

/-! ## The accounts -/

/-- What holds of an intake at any moment. -/
structure Accounts (capacity : Nat) (datagrams : List (List UInt8 × α)) (i : Intake α) : Prop where
  delivered : i.taken ++ i.inbox.waiting = packets i.arrived
  in_turn : i.arrived ++ i.coming = datagrams
  capacity_eq : i.inbox.capacity = capacity
  length_le : i.inbox.queue.length ≤ capacity
  decoded_eq : i.inbox.decoded = (packets i.arrived).length
  rejected_eq : i.inbox.rejected = i.arrived.countP isRefused
  empty_handed : i.stage = .checking ∨ i.stage = .listening → i.inbox.held = none
  laden : i.stage = .offering ∨ i.stage = .doubting → ∃ r, i.inbox.held = some r
  told : i.stage = .ended → i.cancelled = true ∨ i.deserted = true

theorem accounts_start (capacity : Nat) (datagrams : List (List UInt8 × α)) :
    (start capacity datagrams).Accounts capacity datagrams where
  delivered := rfl
  in_turn := rfl
  capacity_eq := rfl
  length_le := Nat.zero_le capacity
  decoded_eq := rfl
  rejected_eq := rfl
  empty_handed _ := rfl
  laden h := by simp [start] at h
  told h := by simp [start] at h

/-- The accounts do not depend on the stage, but for what the intake has in hand. -/
theorem Accounts.restage (h : i.Accounts capacity datagrams) {stage : IntakeStage}
    (empty : stage = .checking ∨ stage = .listening → i.inbox.held = none)
    (laden : stage = .offering ∨ stage = .doubting → ∃ r, i.inbox.held = some r)
    (told : stage = .ended → i.cancelled = true ∨ i.deserted = true) :
    Accounts capacity datagrams { i with stage } :=
  ⟨h.delivered, h.in_turn, h.capacity_eq, h.length_le, h.decoded_eq, h.rejected_eq, empty, laden,
    told⟩

theorem accounts_check (h : i.Accounts capacity datagrams) :
    (i.step .check).Accounts capacity datagrams := by
  cases hs : i.stage with
  | checking =>
    have empty := h.empty_handed (.inl hs)
    simp only [step, hs]
    split
    · rename_i hc
      exact h.restage (fun _ => empty) (by simp) (fun _ => .inl hc)
    · exact h.restage (fun _ => empty) (by simp) (by simp)
  | doubting =>
    have laden := h.laden (.inr hs)
    simp only [step, hs]
    split
    · rename_i hc
      exact h.restage (by simp) (fun _ => laden) (fun _ => .inl hc)
    · exact h.restage (by simp) (fun _ => laden) (by simp)
  | _ =>
    simp only [step, hs]
    exact h

theorem accounts_lapse (h : i.Accounts capacity datagrams) :
    (i.step .lapse).Accounts capacity datagrams := by
  cases hs : i.stage with
  | listening =>
    simp only [step, hs]
    exact h.restage (fun _ => h.empty_handed (.inr hs)) (by simp) (by simp)
  | offering =>
    simp only [step, hs]
    split
    · exact h
    · exact h.restage (by simp) (fun _ => h.laden (.inl hs)) (by simp)
  | _ =>
    simp only [step, hs]
    exact h

theorem accounts_receive (h : i.Accounts capacity datagrams) :
    (i.step .receive).Accounts capacity datagrams := by
  cases hs : i.stage with
  | listening =>
    cases hc : i.coming with
    | nil =>
      simp only [step, hs, hc]
      exact h
    | cons datagram rest =>
      obtain ⟨bytes, sender⟩ := datagram
      have empty := h.empty_handed (.inr hs)
      have queued : i.taken ++ i.inbox.queue = packets i.arrived := by
        rw [← h.delivered, Inbox.waiting, empty, Option.toList_none, List.append_nil]
      have turn : i.arrived ++ [(bytes, sender)] ++ rest = datagrams := by
        rw [← h.in_turn, hc, List.append_assoc]
        rfl
      have accepted := packets_concat i.arrived (bytes, sender)
      have refused : (i.arrived ++ [(bytes, sender)]).countP isRefused =
          i.inbox.rejected + if isRefused (bytes, sender) then 1 else 0 := by
        rw [List.countP_append, List.countP_singleton, h.rejected_eq]
      simp only [step, hs, hc, receive, Inbox.receive_of_open empty]
      cases hp : packet? (bytes, sender) with
      | some r =>
        rw [hp, ← queued] at accepted
        refine ⟨?_, turn, h.capacity_eq, h.length_le, ?_, ?_, by simp, by simp, by simp⟩
        · rw [accepted, List.append_assoc]
          rfl
        · rw [accepted, queued, h.decoded_eq]
          simp
        · rw [refused, isRefused, hp]
          rfl
      | none =>
        rw [hp, Option.toList_none, List.append_nil] at accepted
        refine ⟨?_, turn, h.capacity_eq, h.length_le, ?_, ?_, ?_, ?_, ?_⟩
        · rw [accepted]
          exact h.delivered
        · rw [accepted]
          exact h.decoded_eq
        · rw [refused, isRefused, hp]
          rfl
        · exact fun _ => empty
        · simp [empty]
        · simp [empty]
  | _ =>
    simp only [step, hs]
    exact h

theorem accounts_offer (h : i.Accounts capacity datagrams) :
    (i.step .offer).Accounts capacity datagrams := by
  cases hs : i.stage with
  | offering =>
    obtain ⟨r, held⟩ := h.laden (.inl hs)
    simp only [step, hs]
    split
    · rename_i hd
      exact h.restage (by simp) (by simp) (fun _ => .inr hd)
    split
    · rename_i hroom
      have room : i.inbox.queue.length < i.inbox.capacity := by simpa [hasRoom] using hroom
      have order := h.delivered
      have fits := i.inbox.length_offer_le (Nat.le_of_lt room)
      rw [← i.inbox.waiting_offer] at order
      rw [Inbox.offer_eq held room] at order fits ⊢
      refine ⟨order, h.in_turn, h.capacity_eq, ?_, h.decoded_eq, h.rejected_eq, ?_, ?_, ?_⟩
      · rw [← h.capacity_eq]
        exact fits
      · simp
      · simp
      · simp
    · exact h
  | _ =>
    simp only [step, hs]
    exact h

theorem accounts_take (h : i.Accounts capacity datagrams) :
    (i.step .take).Accounts capacity datagrams := by
  have order := (i.taken_step_take).trans h.delivered
  cases hd : i.deserted with
  | true =>
    rw [step_take_of_deserted hd]
    exact h
  | false =>
    rw [step_take hd] at order ⊢
    refine ⟨order, h.in_turn, h.capacity_eq, ?_, h.decoded_eq, h.rejected_eq, h.empty_handed,
      h.laden, h.told⟩
    have := h.length_le
    rw [List.length_tail]
    omega

theorem accounts_step (h : i.Accounts capacity datagrams) (s : IntakeStep) :
    (i.step s).Accounts capacity datagrams := by
  cases s with
  | check => exact accounts_check h
  | receive => exact accounts_receive h
  | offer => exact accounts_offer h
  | lapse => exact accounts_lapse h
  | take => exact accounts_take h
  | desert =>
    exact ⟨h.delivered, h.in_turn, h.capacity_eq, h.length_le, h.decoded_eq, h.rejected_eq,
      h.empty_handed, h.laden, fun _ => .inr rfl⟩
  | cancel =>
    exact ⟨h.delivered, h.in_turn, h.capacity_eq, h.length_le, h.decoded_eq, h.rejected_eq,
      h.empty_handed, h.laden, fun _ => .inl rfl⟩

theorem accounts_run (h : i.Accounts capacity datagrams) (steps : List IntakeStep) :
    (i.run steps).Accounts capacity datagrams := by
  induction steps generalizing i with
  | nil => exact h
  | cons s rest ih => exact ih (accounts_step h s)

/-! ## What is given up -/

/-- An intake that waits for room in a full queue, with a packet in hand. -/
structure Blocked (i : Intake α) (r : Received α) : Prop where
  waits : i.stage = .offering
  holds : i.inbox.held = some r
  full : i.inbox.queue.length = i.inbox.capacity

/-- At some moment in the course of steps the intake waited for room in a full queue, with a packet
in hand, until the wait was over. -/
def GaveUp (i : Intake α) (steps : List IntakeStep) (r : Received α) : Prop :=
  ∃ before after, steps = before ++ .lapse :: after ∧ (i.run before).Blocked r

theorem GaveUp.concat {steps : List IntakeStep} {r : Received α} (h : i.GaveUp steps r)
    (s : IntakeStep) : i.GaveUp (steps ++ [s]) r := by
  obtain ⟨before, after, rfl, blocked⟩ := h
  exact ⟨before, after ++ [s], by simp, blocked⟩

/-- The desk does not come back. -/
theorem deserted_step (h : i.deserted = true) (s : IntakeStep) : (i.step s).deserted = true := by
  cases s with
  | desert => rfl
  | _ =>
    simp only [step]
    repeat' split
    all_goals exact h

/-- An intake that has waited for room in vain, or has ended, keeps what it has in hand. -/
theorem held_step (hi : i.stage = .doubting ∨ i.stage = .ended) (s : IntakeStep) :
    (i.step s).inbox.held = i.inbox.held := by
  cases s with
  | take =>
    simp only [step, Inbox.take_eq]
    split <;> rfl
  | _ => rcases hi with hi | hi <;> simp [step, hi]

/-- What a step gives up while the desk is there, it finds before a full queue: the packet that is
in hand after it was in hand before it, and the intake waited for room or had already waited in
vain. -/
theorem blocked_or_of_step (h : i.Accounts capacity datagrams) (hd : i.deserted = false)
    {s : IntakeStep} {r : Received α}
    (hs : (i.step s).stage = .doubting ∨ (i.step s).stage = .ended)
    (held : (i.step s).inbox.held = some r) :
    (s = .lapse ∧ i.Blocked r) ∨
      ((i.stage = .doubting ∨ i.stage = .ended) ∧ i.inbox.held = some r) := by
  cases hi : i.stage with
  | checking =>
    have empty := h.empty_handed (.inl hi)
    cases s with
    | check => simp [step, hi, empty] at held
    | _ => simp [step, hi, hd] at hs
  | listening =>
    cases s with
    | receive =>
      cases hc : i.coming with
      | nil => simp [step, hi, hc] at hs
      | cons datagram rest =>
        simp only [step, hi, hc, receive] at hs
        split at hs <;> simp at hs
    | _ => simp [step, hi, hd] at hs
  | offering =>
    cases s with
    | lapse =>
      left
      simp only [step, hi, hd, Bool.false_or] at hs held
      split at hs
      · rw [hi] at hs
        simp at hs
      · rename_i room
        rw [if_neg room] at held
        have hfull : ¬ i.inbox.queue.length < i.inbox.capacity := by simpa [hasRoom] using room
        have := h.length_le
        have := h.capacity_eq
        exact ⟨rfl, hi, held, by omega⟩
    | offer =>
      cases room : i.hasRoom <;> simp [step, hi, hd, room] at hs
    | _ => simp [step, hi, hd] at hs
  | doubting =>
    rw [held_step (.inl hi)] at held
    exact .inr ⟨.inl rfl, held⟩
  | ended =>
    rw [held_step (.inr hi)] at held
    exact .inr ⟨.inr rfl, held⟩

/-- A packet that is in hand when the intake has waited for room in vain, or has ended, is one for
which it gave up waiting before a full queue, if the desk is still there. -/
theorem gaveUp_run (h : i.Accounts capacity datagrams) (hi : i.stage = .checking)
    {steps : List IntakeStep} {r : Received α} (hd : (i.run steps).deserted = false)
    (hs : (i.run steps).stage = .doubting ∨ (i.run steps).stage = .ended)
    (held : (i.run steps).inbox.held = some r) : i.GaveUp steps r := by
  induction steps using List.reverseRecOn with
  | nil =>
    rw [show (i.run []).stage = .checking from hi] at hs
    simp at hs
  | append_singleton steps s ih =>
    rw [run_concat] at hd hs held
    have hd' : (i.run steps).deserted = false := by
      rw [Bool.eq_false_iff] at hd ⊢
      exact fun gone => hd (deserted_step gone s)
    rcases blocked_or_of_step (accounts_run h steps) hd' hs held with
      ⟨rfl, blocked⟩ | ⟨hs', held'⟩
    · exact ⟨steps, [], rfl, blocked⟩
    · exact (ih hd' hs' held').concat s

/-! ## The end -/

/-- An intake that has ended receives nothing and puts nothing into the queue. -/
theorem ended_run (h : i.stage = .ended) (steps : List IntakeStep) :
    (i.run steps).arrived = i.arrived ∧
      (i.run steps).taken ++ (i.run steps).inbox.queue = i.taken ++ i.inbox.queue := by
  induction steps generalizing i with
  | nil => exact ⟨rfl, rfl⟩
  | cons s rest ih =>
    obtain ⟨still, same⟩ := ended_step h s
    obtain ⟨harrived, hqueue⟩ := ih still
    refine ⟨harrived.trans same, hqueue.trans ?_⟩
    cases s with
    | take =>
      cases hd : i.deserted with
      | true => rw [step_take_of_deserted hd]
      | false =>
        rw [step_take hd]
        cases i.inbox.queue <;> simp
    | _ => simp [step, h]

/-- As long as the desk is there, it can take everything that is in the queue. -/
theorem taken_takes (hd : i.deserted = false) :
    (i.run (List.replicate i.inbox.queue.length .take)).taken = i.taken ++ i.inbox.queue := by
  generalize hq : i.inbox.queue = queue
  induction queue generalizing i with
  | nil => simp [run]
  | cons r rest ih =>
    have hstep : (i.step .take).deserted = false ∧ (i.step .take).inbox.queue = rest ∧
        (i.step .take).taken = i.taken ++ [r] := by
      rw [step_take hd, hq]
      exact ⟨hd, rfl, rfl⟩
    show ((i.step .take).run (List.replicate rest.length .take)).taken = _
    rw [ih hstep.1 hstep.2.1, hstep.2.2, List.append_assoc]
    rfl

/-! ## Going on -/

/-- An intake that goes on: nobody has cancelled it, and the desk is there. -/
structure Goes (i : Intake α) : Prop where
  uncancelled : i.cancelled = false
  attended : i.deserted = false

/-- A packet in hand goes into the queue once the desk has taken one out of it. -/
theorem checking_of_offering (h : i.Accounts capacity datagrams) (hcapacity : 1 ≤ capacity)
    (hi : i.Goes) (hs : i.stage = .offering) :
    (i.run [.take, .offer]).stage = .checking ∧ (i.run [.take, .offer]).Goes ∧
      (i.run [.take, .offer]).coming = i.coming := by
  have room : i.inbox.queue.length - 1 < i.inbox.capacity := by
    have := h.length_le
    have := h.capacity_eq
    omega
  have hrun : i.run [.take, .offer] =
      { i with
        inbox := { i.inbox with queue := i.inbox.queue.tail }.offer
        stage := .checking
        taken := i.taken ++ i.inbox.queue.head?.toList } := by
    show (i.step .take).step .offer = _
    rw [step_take hi.attended]
    simp [step, hs, hi.attended, hasRoom, room]
  rw [hrun]
  exact ⟨rfl, ⟨hi.uncancelled, hi.attended⟩, rfl⟩

/-- An intake that goes on can come to its next look, if the queue has any room at all. -/
theorem exists_checking (h : i.Accounts capacity datagrams) (hcapacity : 1 ≤ capacity)
    (hi : i.Goes) :
    ∃ more, (i.run more).stage = .checking ∧ (i.run more).Goes ∧
      (i.run more).coming = i.coming := by
  cases hs : i.stage with
  | checking => exact ⟨[], hs, hi, rfl⟩
  | listening =>
    have hstep : i.run [.lapse] = { i with stage := .checking } := by simp [run, step, hs]
    refine ⟨[.lapse], ?_⟩
    rw [hstep]
    exact ⟨rfl, ⟨hi.uncancelled, hi.attended⟩, rfl⟩
  | offering => exact ⟨[.take, .offer], checking_of_offering h hcapacity hi hs⟩
  | doubting =>
    have hstep : i.step .check = { i with stage := .offering } := by
      simp [step, hs, hi.uncancelled]
    have h' := accounts_check h
    rw [hstep] at h'
    refine ⟨[.check, .take, .offer], ?_⟩
    rw [show i.run [.check, .take, .offer] = (i.step .check).run [.take, .offer] from rfl, hstep]
    exact checking_of_offering h' hcapacity ⟨hi.uncancelled, hi.attended⟩ rfl
  | ended =>
    have told := h.told hs
    rw [hi.uncancelled, hi.attended] at told
    simp at told

/-- At its look an intake that goes on turns to the next datagram and receives it. -/
theorem received_of_checking (hs : i.stage = .checking) (hi : i.Goes)
    {datagram : List UInt8 × α} {rest : List (List UInt8 × α)}
    (hcoming : i.coming = datagram :: rest) :
    (i.run [.check, .receive]).Goes ∧ (i.run [.check, .receive]).coming = rest := by
  have hlook : i.step .check = { i with stage := .listening } := by
    simp [step, hs, hi.uncancelled]
  have hstep : i.run [.check, .receive] = (i.step .check).step .receive := rfl
  rw [hstep, hlook]
  simp only [step, hcoming]
  exact ⟨⟨hi.uncancelled, hi.attended⟩, rfl⟩

/-- As long as an intake goes on, everything can still be delivered. -/
theorem exists_delivery (h : i.Accounts capacity datagrams) (hcapacity : 1 ≤ capacity)
    (hi : i.Goes) : ∃ more, (i.run more).taken = packets datagrams := by
  generalize hcoming : i.coming = coming
  induction coming generalizing i with
  | nil =>
    obtain ⟨more, hs, hi', hsame⟩ := exists_checking h hcapacity hi
    have h' := accounts_run h more
    have hall : (i.run more).arrived = datagrams := by
      rw [← h'.in_turn, hsame, hcoming, List.append_nil]
    refine ⟨more ++ List.replicate (i.run more).inbox.queue.length .take, ?_⟩
    rw [run_append, taken_takes hi'.attended, ← hall, ← h'.delivered, Inbox.waiting,
      h'.empty_handed (.inl hs), Option.toList_none, List.append_nil]
  | cons datagram rest ih =>
    obtain ⟨more, hs, hi', hsame⟩ := exists_checking h hcapacity hi
    obtain ⟨hgoes, hcoming'⟩ := received_of_checking hs hi' (hsame.trans hcoming)
    have h' := accounts_run (accounts_run h more) [.check, .receive]
    obtain ⟨last, hlast⟩ := ih h' hgoes hcoming'
    refine ⟨more ++ ([.check, .receive] ++ last), ?_⟩
    rw [run_append, run_append, hlast]

/-- Whatever datagrams are sent, whatever room the queue has and whatever order the steps come in.
The datagrams are received in turn, and the packets in them, with their senders, are those that the
desk has taken, those in the queue and the one that is held in front of it, in this order.  The
queue is never longer than it may be, and the counters tell how many datagrams have been packets and
how many have not.  An intake ends only when it has been cancelled or the desk has gone, and
receives and queues nothing more.  As long as the desk is there it can then take everything that the
queue holds, which is all but at most one packet, for which the intake gave up waiting before a full
queue; and an intake that goes on can deliver everything. -/
theorem delivers_in_order (capacity : Nat) (datagrams : List (List UInt8 × α))
    (steps : List IntakeStep) :
    let i := (start capacity datagrams).run steps
    i.arrived ++ i.coming = datagrams ∧
      i.taken ++ i.inbox.queue ++ i.inbox.held.toList = packets i.arrived ∧
      i.inbox.queue.length ≤ capacity ∧
      i.inbox.decoded = (packets i.arrived).length ∧
      i.inbox.rejected = i.arrived.countP isRefused ∧
      (i.stage = .ended →
        (i.cancelled = true ∨ i.deserted = true) ∧
          (∀ later, (i.run later).arrived = i.arrived ∧
            (i.run later).taken ++ (i.run later).inbox.queue = i.taken ++ i.inbox.queue) ∧
          (i.deserted = false →
            ∃ lost : Option (Received α), ∃ last,
              (i.run last).taken ++ lost.toList = packets i.arrived ∧
                ∀ r ∈ lost, (start capacity datagrams).GaveUp steps r)) ∧
      (1 ≤ capacity → i.Goes → ∃ more, (i.run more).taken = packets datagrams) := by
  intro i
  have h : i.Accounts capacity datagrams := accounts_run (accounts_start capacity datagrams) steps
  have order : i.taken ++ i.inbox.queue ++ i.inbox.held.toList = packets i.arrived := by
    rw [List.append_assoc]
    exact h.delivered
  refine ⟨h.in_turn, order, h.length_le, h.decoded_eq, h.rejected_eq, fun ended => ?_,
    exists_delivery h⟩
  refine ⟨h.told ended, ended_run ended, fun hd => ?_⟩
  refine ⟨i.inbox.held, List.replicate i.inbox.queue.length .take, ?_, ?_⟩
  · rw [taken_takes hd, order]
  · intro r hr
    exact gaveUp_run (accounts_start capacity datagrams) rfl hd (.inr ended) hr

/-- Where some datagrams come from. -/
def handheld : Address := { ip := .v4 10 0 0 2, port := 40000 }

/-- Three packets, and between the first two of them a datagram that is none. -/
def crowd : List (List UInt8 × Address) :=
  [(Wire.encode (.ofAction .up 1), handheld), (magic, handheld),
    (Wire.encode (.ofAction .b1 1), handheld), (Wire.encode (.ofAction .b2 1), handheld)]

/-- The desk makes room just after the intake has waited for it in vain, and then the intake is
cancelled. -/
def lateRoom : List IntakeStep :=
  [.check, .receive, .offer, .check, .receive, .check, .receive, .offer, .lapse, .take, .cancel,
    .check]

theorem delivers_in_order_lateRoom :
    let i := (start 1 crowd).run lateRoom
    i.stage = .ended ∧ i.deserted = false ∧ i.taken = [⟨.ofAction .up 1, handheld⟩] ∧
      i.inbox.queue = [] ∧ i.coming.length = 1 ∧ i.inbox.decoded = 2 ∧ i.inbox.rejected = 1 ∧
      ∃ lost : Option (Received Address), ∃ last,
        (i.run last).taken ++ lost.toList =
            [⟨.ofAction .up 1, handheld⟩, ⟨.ofAction .b1 1, handheld⟩] ∧
          ∀ r ∈ lost, (start 1 crowd).GaveUp lateRoom r := by
  intro i
  have ended : i.stage = .ended := by decide
  have attended : i.deserted = false := by decide
  have hpackets : packets i.arrived =
      [⟨.ofAction .up 1, handheld⟩, ⟨.ofAction .b1 1, handheld⟩] := by decide
  obtain ⟨-, -, finish⟩ := (delivers_in_order 1 crowd lateRoom).2.2.2.2.2.1 ended
  rw [← hpackets]
  exact ⟨ended, attended, by decide, by decide, by decide, by decide, by decide, finish attended⟩

end Intake

end LightingDesk
