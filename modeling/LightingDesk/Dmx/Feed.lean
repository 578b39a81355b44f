import LightingDesk.Dmx.Sink

/-!
# Feeds

A feed is a sink that sends the whole universe to a lighting server after every write
it takes.  It reads back from a copy of its own, which holds the new levels even when
sending them failed.  The server counts channels from 0, so that each stands in a buffer
one place before its number.

    place i of a frame's buffer holds the level of channel i + 1        (getElem?_buffer)
-/

namespace LightingDesk

/-- The levels of a universe as a lighting server takes them, counted from 0. -/
structure Buffer where
  slots : Vector UInt8 512
deriving DecidableEq, Repr

namespace Buffer

/-- A buffer in which nothing has been set. -/
def dark : Buffer := ⟨Vector.replicate 512 0⟩

/-- Gives the channel in place `i` the level `v`. -/
def setChannel (b : Buffer) (i : Nat) (v : UInt8) : Buffer := ⟨b.slots.setIfInBounds i v⟩

/-- Sets consecutive channels from place `start` on. -/
def fill (b : Buffer) (start : Nat) : List UInt8 → Buffer
  | [] => b
  | v :: vs => (b.setChannel start v).fill (start + 1) vs

/-- All 512 levels in order. -/
def toList (b : Buffer) : List UInt8 := b.slots.toList

end Buffer

/-- The buffer that shows a frame. -/
def Frame.buffer (f : Frame) : Buffer := Buffer.dark.fill 0 (f.toList.drop 1)

/-- One message to the lighting server: the levels of channels 1 to 512. -/
structure Message where
  number : UInt32
  levels : List UInt8
deriving DecidableEq, Repr

/-- A connection to one universe of a lighting server.  `refuses n` is the reason if the `n`-th send
does not get through; `offered` holds every message that was to be sent, and `sent` those that got
through, both newest first. -/
structure Feed where
  number : UInt32
  kept : Frame
  offered : List Message
  sent : List Message
  refuses : Nat → Option String

namespace Feed

/-- A connection over which nothing has been sent; its copy is dark. -/
def connect (number : UInt32) (refuses : Nat → Option String) : Feed :=
  ⟨number, Frame.dark, [], [], refuses⟩

/-- How many messages were to be sent. -/
def attempts (s : Feed) : Nat := s.offered.length

/-- Sends the kept levels. -/
def flush (s : Feed) : Feed × Except SinkError Unit :=
  let message : Message := ⟨s.number, s.kept.buffer.toList⟩
  let next := { s with offered := message :: s.offered }
  match s.refuses s.attempts with
  | some reason => (next, .error (.output reason))
  | none => ({ next with sent := message :: s.sent }, .ok ())

instance : Sink Feed where
  frame s := s.kept
  write s _ w :=
    match w.check with
    | .ok () => flush { s with kept := s.kept.apply w }
    | .error e => (s, .error e)

/-- Opens a feed and darkens its universe, so that the server shows what the copy holds. -/
def start (number : UInt32) (refuses : Nat → Option String) : Feed × Except SinkError Unit :=
  Sink.clear (connect number refuses) .desk

/-- The server has gone: nothing that is sent from now on gets through. -/
def hangUp (s : Feed) (reason : String) : Feed := { s with refuses := fun _ => some reason }

end Feed

/-! ## Lemmas -/

theorem Buffer.getElem?_setChannel (b : Buffer) (i j : Nat) (v : UInt8) :
    (b.setChannel i v).toList[j]? = if i = j ∧ j < 512 then some v else b.toList[j]? := by
  by_cases hj : j < 512
  · by_cases hi : i = j
    · subst hi; simp [setChannel, toList, hj]
    · simp [setChannel, toList, hi]
  · simp [toList, hj]

/-- Filling a buffer sets the channels of the run and no others. -/
theorem Buffer.getElem?_fill (b : Buffer) (start j : Nat) (vs : List UInt8) :
    (b.fill start vs).toList[j]? =
      if start ≤ j ∧ j < 512 then (vs[j - start]?).or b.toList[j]? else b.toList[j]? := by
  induction vs generalizing b start with
  | nil => simp [fill]
  | cons v vs ih =>
    rw [fill, ih, getElem?_setChannel]
    by_cases hlt : j < start
    · simp [show ¬ start ≤ j by omega, show ¬ start + 1 ≤ j by omega, show ¬ start = j by omega]
    · by_cases heq : start = j
      · subst heq
        rw [if_neg (fun h => absurd h.1 (Nat.not_succ_le_self start))]
        by_cases hs : start < 512 <;> simp [hs]
      · have e : j - start = (j - (start + 1)) + 1 := by omega
        simp [show start ≤ j by omega, show start + 1 ≤ j by omega, heq, e]

@[simp] theorem Buffer.length_toList (b : Buffer) : b.toList.length = 512 := by
  simp [toList]

theorem Frame.getElem?_buffer (f : Frame) {i : Nat} (h : i < 512) :
    f.buffer.toList[i]? = some (f.level (i + 1)) := by
  rw [buffer, Buffer.getElem?_fill, if_pos ⟨Nat.zero_le i, h⟩, level_of_lt f (by omega)]
  have hi : i + 1 < 513 := by omega
  simp [toList, hi]

end LightingDesk
