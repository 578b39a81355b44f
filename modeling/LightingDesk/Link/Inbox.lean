import LightingDesk.Link.Address
import LightingDesk.Remote.Wire

/-!
# The inbox

Datagrams that decode wait in a queue of bounded length for the desk; the others are only
counted.  While the queue is full, one packet is held in front of it and nothing more is
received.

    what is queued and held keeps the order in which it arrived             (waiting_offer)
    what is taken has waited in front of everything else                    (waiting_take)
    the queue is never longer than its capacity                             (length_offer_le)
-/

namespace LightingDesk

/-- A packet and who sent it, told by the sender's whole address or only by its host. -/
structure Received (α : Type := Ip) where
  packet : Packet
  sender : α
deriving DecidableEq, Repr

/-- Packets on their way to the desk.  `held` is the one that did not fit into the queue. -/
structure Inbox (α : Type := Ip) where
  capacity : Nat
  queue : List (Received α)
  held : Option (Received α)
  decoded : Nat
  rejected : Nat
deriving DecidableEq, Repr

namespace Inbox

variable {α : Type}

/-- An inbox that has received nothing. -/
def empty (capacity : Nat) : Inbox α := ⟨capacity, [], none, 0, 0⟩

/-- Whether a datagram can be received: no packet is held. -/
def isOpen (b : Inbox α) : Bool := b.held.isNone

/-- Receives a datagram, of which no more than `maxDatagram` bytes are looked at. -/
def receive (b : Inbox α) (bytes : List UInt8) (sender : α) : Inbox α :=
  if b.isOpen then
    match Wire.decode (bytes.take maxDatagram) with
    | .ok packet => { b with held := some ⟨packet, sender⟩, decoded := b.decoded + 1 }
    | .error _ => { b with rejected := b.rejected + 1 }
  else b

/-- Puts the held packet into the queue, if there is room. -/
def offer (b : Inbox α) : Inbox α :=
  match b.held with
  | some r =>
    if b.queue.length < b.capacity then { b with queue := b.queue ++ [r], held := none } else b
  | none => b

/-- Takes the packet that has waited longest. -/
def take (b : Inbox α) : Inbox α × Option (Received α) :=
  match b.queue with
  | r :: rest => ({ b with queue := rest }, some r)
  | [] => (b, none)

/-- Everything that waits, in order. -/
def waiting (b : Inbox α) : List (Received α) := b.queue ++ b.held.toList

theorem waiting_offer (b : Inbox α) : b.offer.waiting = b.waiting := by
  unfold offer waiting
  split
  · rename_i r h
    split <;> simp [h]
  · rfl

theorem length_offer_le (b : Inbox α) (h : b.queue.length ≤ b.capacity) :
    b.offer.queue.length ≤ b.offer.capacity := by
  unfold offer
  split
  · split
    · simp; omega
    · exact h
  · exact h

theorem take_eq (b : Inbox α) : b.take = ({ b with queue := b.queue.tail }, b.queue.head?) := by
  unfold take
  cases hq : b.queue with
  | nil => cases b; cases hq; rfl
  | cons r rest => rfl

theorem waiting_take (b : Inbox α) : b.take.2.toList ++ b.take.1.waiting = b.waiting := by
  rw [take_eq]
  cases hq : b.queue <;> simp [waiting, hq]

end Inbox

end LightingDesk
