import LightingDesk.Task.Signal

/-!
# Interleavings of a playback and its owner

A playback runs beside the desk that owns it.  Both take their steps in any order: what either
does to the effect is one step, and so is each use of the signal between them.  A sleep can end
at any moment, and it is sleeping until the playback looks at the effect again.

    what has been cancelled stays cancelled                     (cancelled_step)
-/

namespace LightingDesk.Interleaving

/-- What a playback does next: look whether a tick is due, sleep for a time that was computed from
an interval, put back what its effect changed, or nothing any more. -/
inductive Stage
  | looking
  | asleep (interval : Nat)
  | restoring
  | done
deriving DecidableEq, Repr

/-- Something that has happened and that others can see. -/
inductive Act
  | tick
  | cancel
  | restore
deriving DecidableEq, Repr

/-- A playback and its owner.  `interval` is the effect's own, `hasChanged` says that the owner has
changed the effect and not yet woken the playback, and `acts` is what has happened, newest first. -/
structure State where
  interval : Nat
  signal : Signal
  stage : Stage
  hasChanged : Bool
  acts : List Act
deriving DecidableEq, Repr

/-- A step of the playback or of its owner. -/
inductive Step
  | look (due : Bool)
  | stir
  | restore
  | change (interval : Nat)
  | wake
  | cancel
deriving DecidableEq, Repr

namespace State

/-- A playback that has just been started. -/
def start (interval : Nat) : State := ⟨interval, .untouched, .looking, false, []⟩

/-- Whether the effect has ticked. -/
def hasTicked (s : State) : Bool := s.acts.contains .tick

/-- Whether the owner has cancelled the playback. -/
def hasCancelled (s : State) : Bool := s.acts.contains .cancel

/-- Takes a step, if it can be taken.  The first look always ticks.  The owner neither changes nor
cancels anything between a change and the waking that follows it, or after it has cancelled. -/
def step (s : State) : Step → State
  | .look due =>
    if s.stage = .looking then
      { s with
        stage := .asleep s.interval
        acts := if due ∨ !s.hasTicked then .tick :: s.acts else s.acts }
    else s
  | .stir =>
    match s.stage with
    | .asleep _ =>
      { s with
        signal := s.signal.sleep.1
        stage := if s.signal.sleep.2 then .restoring else .looking }
    | _ => s
  | .restore =>
    if s.stage = .restoring then { s with stage := .done, acts := .restore :: s.acts } else s
  | .change interval =>
    if s.hasChanged ∨ s.hasCancelled then s else { s with interval, hasChanged := true }
  | .wake => { s with signal := s.signal.wake, hasChanged := false }
  | .cancel =>
    if s.hasChanged ∨ s.hasCancelled then s
    else { s with signal := s.signal.cancel, acts := .cancel :: s.acts }

/-- Takes steps, one after the other. -/
def run (s : State) (steps : List Step) : State := steps.foldl step s

theorem cancelled_step {s : State} (h : s.signal = .cancelled) (step : Step) :
    (s.step step).signal = .cancelled := by
  cases step with
  | wake => simp [State.step, h, Signal.wake]
  | stir =>
    simp only [State.step]
    split <;> simp [h, Signal.sleep]
  | _ =>
    simp only [State.step]
    split <;> simp [h, Signal.cancel]

end State

end LightingDesk.Interleaving
