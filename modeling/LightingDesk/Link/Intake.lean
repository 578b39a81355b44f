import LightingDesk.Link.Inbox

/-!
# The intake

The intake fills an inbox while the desk empties it.  Both take their steps in any order, and at
any moment the intake can be cancelled.  It looks whether it has been before it waits for a
datagram, and again whenever it has waited for room in a full queue for too long; if so it ends, and
a packet that is still held in front of the queue is not delivered.  What the intake waits for may
come at any moment, even between the end of the wait and the look that follows it.  The desk may
also go for good: it takes no more packets then, and the intake ends when it finds the queue
deserted.

    the desk takes packets in the order in which they wait      (taken_step_take)
    an intake that has ended stays so and receives nothing      (ended_step)
-/

namespace LightingDesk

/-- What an intake does next: look whether it has been cancelled, wait for a datagram, wait for room
in the queue, look whether it has been cancelled because there was none, or nothing any more. -/
inductive IntakeStage
  | checking
  | listening
  | offering
  | doubting
  | ended
deriving DecidableEq, Repr

/-- An intake.  `coming` holds the datagrams that have not been received yet, `arrived` those that
have, and `taken` the packets that the desk has taken out of the queue, all oldest first.  A queue
is `deserted` when the desk has gone. -/
structure Intake (α : Type) where
  inbox : Inbox α
  stage : IntakeStage
  cancelled : Bool
  deserted : Bool
  coming : List (List UInt8 × α)
  arrived : List (List UInt8 × α)
  taken : List (Received α)
deriving DecidableEq, Repr

/-- A step of an intake, of the desk, or of whoever cancels.  `lapse` is the end of a wait in which
nothing came, or which failed. -/
inductive IntakeStep
  | check
  | receive
  | offer
  | lapse
  | take
  | desert
  | cancel
deriving DecidableEq, Repr

namespace Intake

variable {α : Type}

/-- An intake that has just been started, with the datagrams that will be sent to it. -/
def start (capacity : Nat) (datagrams : List (List UInt8 × α)) : Intake α :=
  ⟨Inbox.empty capacity, .checking, false, false, datagrams, [], []⟩

/-- Whether the queue has room for another packet. -/
def hasRoom (i : Intake α) : Bool := i.inbox.queue.length < i.inbox.capacity

/-- Receives a datagram and holds the packet, if it decodes. -/
def receive (i : Intake α) (bytes : List UInt8) (sender : α) : Intake α :=
  let inbox := i.inbox.receive bytes sender
  { i with
    inbox
    stage := if inbox.held.isSome then .offering else .checking
    arrived := i.arrived ++ [(bytes, sender)] }

/-- Takes a step, if it can be taken. -/
def step (i : Intake α) : IntakeStep → Intake α
  | .check =>
    match i.stage with
    | .checking => { i with stage := if i.cancelled then .ended else .listening }
    | .doubting => { i with stage := if i.cancelled then .ended else .offering }
    | _ => i
  | .receive =>
    match i.stage, i.coming with
    | .listening, (bytes, sender) :: rest => { i with coming := rest }.receive bytes sender
    | _, _ => i
  | .offer =>
    match i.stage with
    | .offering =>
      if i.deserted then { i with stage := .ended }
      else if i.hasRoom then { i with inbox := i.inbox.offer, stage := .checking }
      else i
    | _ => i
  | .lapse =>
    match i.stage with
    | .listening => { i with stage := .checking }
    | .offering => if i.deserted || i.hasRoom then i else { i with stage := .doubting }
    | _ => i
  | .take =>
    if i.deserted then i
    else { i with inbox := i.inbox.take.1, taken := i.taken ++ i.inbox.take.2.toList }
  | .desert => { i with deserted := true }
  | .cancel => { i with cancelled := true }

/-- Takes steps, one after the other. -/
def run (i : Intake α) (steps : List IntakeStep) : Intake α := steps.foldl step i

/-- The packet in a datagram, with its sender. -/
def packet? (datagram : List UInt8 × α) : Option (Received α) :=
  match Wire.decode (datagram.1.take maxDatagram) with
  | .ok packet => some ⟨packet, datagram.2⟩
  | .error _ => none

/-- The packets in datagrams, with their senders. -/
def packets (datagrams : List (List UInt8 × α)) : List (Received α) := datagrams.filterMap packet?

variable {i : Intake α}

theorem step_take (hd : i.deserted = false) :
    i.step .take =
      { i with
        inbox := { i.inbox with queue := i.inbox.queue.tail }
        taken := i.taken ++ i.inbox.queue.head?.toList } := by
  simp [step, hd, Inbox.take_eq]

theorem step_take_of_deserted (hd : i.deserted = true) : i.step .take = i := by
  simp [step, hd]

theorem taken_step_take (i : Intake α) :
    (i.step .take).taken ++ (i.step .take).inbox.waiting = i.taken ++ i.inbox.waiting := by
  simp only [step]
  split
  · rfl
  · rw [List.append_assoc, Inbox.waiting_take]

theorem ended_step (h : i.stage = .ended) (s : IntakeStep) :
    (i.step s).stage = .ended ∧ (i.step s).arrived = i.arrived := by
  cases s with
  | take =>
    simp only [step]
    split <;> exact ⟨h, rfl⟩
  | _ => simp [step, h]

end Intake

end LightingDesk
