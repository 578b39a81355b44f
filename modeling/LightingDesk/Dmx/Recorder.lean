import LightingDesk.Dmx.Sink

/-!
# Recorders

A recorder is a frame in memory that writes down every write asked of it, the refused
ones too, and that can be told to fail some of them.  Which ones is a function of what
was asked before, so any pattern of failures can be described.
-/

namespace LightingDesk

/-- A sink that keeps its history, newest first.  `fails` picks the writes that do not get
through, with the reason, and `hung` makes the writes of effects never return. -/
structure Recorder where
  kept : Frame
  history : List (Author × Write)
  fails : List (Author × Write) → Write → Option String
  hung : Bool

namespace Recorder

/-- A recorder holding a frame, whose runs fail when they start at a channel for which there
is a reason; one for 0 fails whole frames. -/
def failingAt (frame : Frame) (reasons : Nat → Option String) : Recorder :=
  ⟨frame, [], fun _ w => reasons w.start, false⟩

/-- One reason for some channels, and none for the others. -/
def reasonAt (channels : List Nat) (reason : String) (c : Nat) : Option String :=
  if channels.contains c then some reason else none

/-- Forgets the history. -/
def forget (r : Recorder) : Recorder := { r with history := [] }

instance : Sink Recorder where
  frame r := r.kept
  write r author w :=
    let r' := { r with history := (author, w) :: r.history }
    match r.fails r.history w with
    | some reason => (r', .error (.output reason))
    | none =>
      match w.check with
      | .ok () => ({ r' with kept := r.kept.apply w }, .ok ())
      | .error e => (r', .error e)
  hangs r := r.hung

end Recorder

end LightingDesk
