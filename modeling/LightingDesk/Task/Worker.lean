import LightingDesk.Clock.Span
import LightingDesk.Task.Signal

/-!
# Workers

A worker is a named activity that is stopped by cancelling its signal and waiting, for a
bounded time, until its body has returned.  Only the first stop waits: a worker that did
not return in time is left alone, and later stops succeed at once.
-/

namespace LightingDesk

/-- Why a worker could not be stopped. -/
inductive StopError
  | timeout (name : String) (limit : Nat)
  | panicked (name : String)
deriving DecidableEq, Repr

/-- The text shown for a worker that could not be stopped. -/
def StopError.message : StopError → String
  | .timeout name limit => s!"{name} did not stop within {Span.text limit}"
  | .panicked name => s!"{name} panicked"

/-- How a worker's body behaves: it waits to be cancelled, it has returned by itself, it broke
down, or it hangs and takes no notice. -/
inductive Body
  | waits
  | returns
  | panics
  | hangs
deriving DecidableEq, Repr

/-- A named activity and its signal. -/
structure Worker where
  name : String
  body : Body
  signal : Signal
  released : Bool
deriving DecidableEq, Repr

namespace Worker

/-- Starts an activity. -/
def spawn (name : String) (body : Body) : Worker := ⟨name, body, .untouched, false⟩

/-- Wakes the worker if it sleeps. -/
def wake (w : Worker) : Worker := { w with signal := w.signal.wake }

/-- Cancels the worker and waits until it has returned. -/
def stop (w : Worker) (limit : Nat) : Worker × Except StopError Unit :=
  let result :=
    if w.released then .ok ()
    else
      match w.body with
      | .waits | .returns => .ok ()
      | .panics => .error (.panicked w.name)
      | .hangs => .error (.timeout w.name limit)
  ({ w with signal := w.signal.cancel, released := true }, result)

/-- Whether the body has run to its end. -/
def hasEnded (w : Worker) : Bool :=
  match w.body with
  | .returns => true
  | .waits => w.signal.isCancelled
  | .panics | .hangs => false

end Worker

end LightingDesk
