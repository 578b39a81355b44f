import LightingDesk.Clock.Pacer
import LightingDesk.Dmx.Sink

/-!
# Chases

A chase plays saved scenes in order, over and over, and holds each for the chase delay.
It takes at least two scenes.

    a delay is kept within the bounds of a chase                (clamp_bounds)
-/

namespace LightingDesk

/-- Two or more scenes being played. -/
structure Chase where
  scenes : List Frame
  position : Nat
  delay : Nat
  two_le : 2 ≤ scenes.length
  position_lt : position < scenes.length

namespace Chase

/-- The shortest delay a desk allows. -/
def minDelay : Nat := Span.ofMillis 30

/-- The longest delay a desk allows. -/
def maxDelay : Nat := Span.ofMillis 10000

/-- The delay nearest to a given one that a desk allows. -/
def clamp (delay : Nat) : Nat := max minDelay (min delay maxDelay)

theorem clamp_bounds (delay : Nat) : minDelay ≤ clamp delay ∧ clamp delay ≤ maxDelay :=
  ⟨Nat.le_max_left _ _, Nat.max_le.2 ⟨by decide, Nat.min_le_right _ _⟩⟩

/-- A chase at its first scene, unless there are too few scenes. -/
def start? (scenes : List Frame) (delay : Nat) : Option Chase :=
  if h : 2 ≤ scenes.length then some ⟨scenes, 0, delay, h, by omega⟩ else none

/-- Changes the delay, for the scene that is being held as well. -/
def setDelay (c : Chase) (delay : Nat) : Chase := { c with delay }

/-- The scene that the next tick shows. -/
def scene (c : Chase) : Frame := c.scenes.get ⟨c.position, c.position_lt⟩

/-- Shows the current scene and moves on to the next one. -/
def tick (c : Chase) : Chase × List Job :=
  ({ c with
      position := (c.position + 1) % c.scenes.length
      position_lt := Nat.mod_lt _ (by have := c.two_le; omega) },
    [[.whole c.scene]])

end Chase

end LightingDesk
