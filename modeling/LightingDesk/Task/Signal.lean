/-!
# Signals

A signal is shared by a worker, which sleeps on it, and its owner, who can cut a sleep short
or cancel the worker.  Waking is used up by one sleep; cancelling is for good.
-/

namespace LightingDesk

/-- The state of a signal. -/
inductive Signal
  | untouched
  | woken
  | cancelled
deriving DecidableEq, Repr

namespace Signal

/-- Whether the worker has been told to end. -/
def isCancelled (s : Signal) : Bool := s == cancelled

/-- What a sleep leaves behind, however it ended, and whether it found the worker cancelled. -/
def sleep : Signal → Signal × Bool
  | untouched => (untouched, false)
  | woken => (untouched, false)
  | cancelled => (cancelled, true)

/-- Cuts the current sleep short, or the next one. -/
def wake : Signal → Signal
  | untouched => woken
  | s => s

/-- Tells the worker to end. -/
def cancel (_ : Signal) : Signal := cancelled

end Signal

end LightingDesk
