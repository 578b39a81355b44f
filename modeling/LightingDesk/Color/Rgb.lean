/-!
# Colors

A color is a red, a green and a blue level.  The palette is the eight colors that preset
mode steps through; the rainbow is the hue sweep that previews the color wheel: six
ramps of a hundred steps around the wheel, closed by green.

    rainbow.length = 601          (length_rainbow)
-/

namespace LightingDesk

/-- The levels of red, green and blue. -/
structure Color where
  red : UInt8
  green : UInt8
  blue : UInt8
deriving DecidableEq, Repr

namespace Color

/-- All three at full. -/
def white : Color := ⟨255, 255, 255⟩

/-- All three at zero. -/
def black : Color := ⟨0, 0, 0⟩

/-- The colors of preset mode, in the order they come up. -/
def palette : List Color :=
  [white, ⟨255, 0, 0⟩, ⟨255, 255, 0⟩, ⟨0, 255, 0⟩, ⟨0, 255, 255⟩, ⟨0, 0, 255⟩, ⟨255, 0, 255⟩,
    black]

/-- How many steps one ramp of the rainbow takes. -/
def rampSteps : Nat := 100

/-- The level at a step of a ramp from 0 to 255. -/
def ramp (step : Nat) : UInt8 := (step * 255 / rampSteps).toUInt8

/-- A ramp upwards: the steps 0 to 99. -/
def rising : List UInt8 := (List.range rampSteps).map ramp

/-- A ramp downwards: the steps 100 to 1. -/
def falling : List UInt8 := ((List.range rampSteps).map fun step => ramp (step + 1)).reverse

/-- The hue sweep, starting and ending at green. -/
def rainbow : List Color :=
  rising.map (⟨·, 255, 0⟩) ++ falling.map (⟨255, ·, 0⟩) ++ rising.map (⟨255, 0, ·⟩) ++
    falling.map (⟨·, 0, 255⟩) ++ rising.map (⟨0, ·, 255⟩) ++ falling.map (⟨0, 255, ·⟩) ++
    [⟨0, 255, 0⟩]

theorem length_palette : palette.length = 8 := rfl

theorem length_rainbow : rainbow.length = 601 := by
  simp [rainbow, rising, falling, rampSteps]

end Color

end LightingDesk
