import LightingDesk.Rig.Gesture
import LightingDesk.Show.Wave

/-!
# Previews

The three animations that show what committing a staged choice leads to: a cycle through
the palette, a cycle through the rainbow, and a white pulse before raw channel editing.
-/

namespace LightingDesk

/-- The two color sequences that can be previewed. -/
inductive Sequence
  | presets
  | rainbow
deriving DecidableEq, Repr

namespace Sequence

/-- The colors of the sequence. -/
def colors : Sequence → List Color
  | presets => Color.palette
  | rainbow => Color.rainbow

theorem colors_pos (s : Sequence) : 0 < s.colors.length := by
  cases s
  · simp [colors, Color.length_palette]
  · simp [colors, Color.length_rainbow]

end Sequence

/-- Fixtures stepping through a color sequence at full dimmer. -/
structure ColorCycle where
  sequence : Sequence
  fixtures : List Fixture
  position : Nat
  position_lt : position < sequence.colors.length
deriving DecidableEq, Repr

namespace ColorCycle

/-- A cycle at its first color. -/
def start (sequence : Sequence) (fixtures : List Fixture) : ColorCycle :=
  ⟨sequence, fixtures, 0, sequence.colors_pos⟩

/-- The color that the next tick shows. -/
def color (c : ColorCycle) : Color := c.sequence.colors.get ⟨c.position, c.position_lt⟩

/-- Shows the current color and moves on to the next one. -/
def tick (c : ColorCycle) : ColorCycle × List Job :=
  ({ c with
      position := (c.position + 1) % c.sequence.colors.length
      position_lt := Nat.mod_lt _ c.sequence.colors_pos },
    c.fixtures.flatMap fun f => [f.setColor c.color, f.setDimmer 255])

end ColorCycle

/-- A white pulse over fixtures, with the levels to put back afterwards. -/
structure RawPulse where
  lights : List (Fixture × List UInt8)
  wave : Wave
deriving DecidableEq, Repr

namespace RawPulse

/-- A pulse over fixtures that look as they do in `frame`. -/
def start (fixtures : List Fixture) (frame : Frame) : RawPulse :=
  ⟨fixtures.map fun f => (f, f.values frame), Wave.fresh⟩

/-- Drives every fixture white, with the dimmer on the wave. -/
def tick (p : RawPulse) : RawPulse × List Job :=
  let wave := p.wave.advance
  ({ p with wave },
    p.lights.flatMap fun light => [light.1.setWhite 255, light.1.setDimmer wave.level])

/-- The jobs that put all levels back. -/
def restore (p : RawPulse) : List Job := p.lights.map fun light => light.1.setValues light.2

end RawPulse

end LightingDesk
