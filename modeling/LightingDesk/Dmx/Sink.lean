import LightingDesk.Dmx.Author
import LightingDesk.Dmx.Write

/-!
# Sinks

A sink is whatever the levels are written to and read back from.  Callers hand it
jobs: a job is a list of writes made one after another until one of them fails, and
a failed job is reported once.  The plainest sink is a frame kept in memory; it takes
every write that passes `Write.check`.

    a job without a refused write changes memory by all its writes     (perform_frame)
-/

namespace LightingDesk

/-- A destination for levels.  `hangs` says that a write made by an effect never returns. -/
class Sink (σ : Type) where
  frame : σ → Frame
  write : σ → Author → Write → σ × Except SinkError Unit
  hangs : σ → Bool := fun _ => false

/-- Writes that belong together; the first failure leaves out the rest. -/
abbrev Job := List Write

namespace Sink

variable {σ : Type} [Sink σ]

/-- Makes the writes of a job in order and stops at the first that fails. -/
def perform (sink : σ) (author : Author) : Job → σ × Except SinkError Unit
  | [] => (sink, .ok ())
  | w :: rest =>
    match write sink author w with
    | (sink', .ok ()) => perform sink' author rest
    | (sink', .error e) => (sink', .error e)

/-- Does every job, whatever becomes of the others, and counts the ones that failed. -/
def performAll (sink : σ) (author : Author) : List Job → σ × Nat
  | [] => (sink, 0)
  | job :: rest =>
    match perform sink author job with
    | (sink', .ok ()) => performAll sink' author rest
    | (sink', .error _) =>
      let (sink'', failed) := performAll sink' author rest
      (sink'', failed + 1)

/-- Puts every channel to zero. -/
def clear (sink : σ) (author : Author) : σ × Except SinkError Unit :=
  write sink author (.whole Frame.dark)

end Sink

/-- A frame in memory is a sink that refuses only what no sink takes. -/
instance : Sink Frame where
  frame f := f
  write f _ w :=
    match w.check with
    | .ok () => (f.apply w, .ok ())
    | .error e => (f, .error e)

/-! ## Lemmas -/

/-- Whether a job asks for any write at all. -/
def Job.isSilent (job : Job) : Bool := job.isEmpty

theorem perform_frame (f : Frame) (author : Author) (job : Job)
    (h : ∀ w ∈ job, w.check = .ok ()) :
    Sink.perform f author job = (job.foldl Frame.apply f, .ok ()) := by
  induction job generalizing f with
  | nil => rfl
  | cons w rest ih =>
    have hw := h w (by simp)
    have hs : Sink.write f author w = (f.apply w, .ok ()) := by
      show (match w.check with
        | .ok () => (f.apply w, Except.ok ())
        | .error e => (f, .error e)) = _
      rw [hw]
    simp only [Sink.perform, hs, List.foldl_cons]
    exact ih _ fun w' hw' => h w' (by simp [hw'])

end LightingDesk
