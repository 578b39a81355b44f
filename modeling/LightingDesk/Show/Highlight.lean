import LightingDesk.Rig.Gesture
import LightingDesk.Show.Wave

/-!
# Highlights

A highlight pulses the dimmers of the fixtures an operator points at, all in phase, and
remembers what each looked like before.  A highlighted fixture without any color gets its
default color channel lit, so that the pulse can be seen; that is looked at only on the
first tick after `resync` has been asked for.
-/

namespace LightingDesk

/-- A highlighted fixture: its place in the rig, and the levels to put back. -/
structure Lit where
  index : Nat
  fixture : Fixture
  saved : List UInt8
deriving DecidableEq, Repr

/-- The fixtures being highlighted, oldest first, and the wave they follow. -/
structure Highlight where
  lights : List Lit
  wave : Wave
  resync : Bool
deriving DecidableEq, Repr

namespace Highlight

/-- Nothing highlighted yet. -/
def empty : Highlight := ⟨[], Wave.fresh, false⟩

/-- Whether the fixture at a place in the rig is highlighted. -/
def contains (h : Highlight) (index : Nat) : Bool := h.lights.any (·.index == index)

/-- The places of the highlighted fixtures, oldest first. -/
def indices (h : Highlight) : List Nat := h.lights.map (·.index)

/-- Highlights a fixture as it looks in `frame`; one that is highlighted already stays as
it is. -/
def add (h : Highlight) (index : Nat) (fixture : Fixture) (frame : Frame) : Highlight :=
  if h.contains index then h
  else { h with lights := h.lights ++ [⟨index, fixture, fixture.values frame⟩], resync := true }

/-- Stops highlighting a fixture, and the job that puts its levels back. -/
def remove (h : Highlight) (index : Nat) : Highlight × List Job :=
  match h.lights.find? (·.index == index) with
  | some lit =>
    ({ h with lights := h.lights.eraseP (·.index == index) }, [lit.fixture.setValues lit.saved])
  | none => (h, [])

/-- Asks the next tick to light fixtures that show no color. -/
def askResync (h : Highlight) : Highlight := { h with resync := true }

/-- The job that makes a fixture without color visible. -/
def colorJob (frame : Frame) (lit : Lit) : Option Job :=
  if lit.fixture.hasColor frame then none
  else lit.fixture.defaultColor.map fun i => lit.fixture.setChannel i 255

/-- One tick on a sink that shows `frame`. -/
def tick (h : Highlight) (frame : Frame) : Highlight × List Job :=
  let colors := if h.resync then h.lights.filterMap (colorJob frame) else []
  let wave := h.wave.advance
  ({ h with wave, resync := false },
    colors ++ h.lights.map fun lit => lit.fixture.setDimmer wave.level)

/-- Ends every highlight, and the jobs that put all levels back. -/
def restore (h : Highlight) : Highlight × List Job :=
  ({ h with lights := [] }, h.lights.map fun lit => lit.fixture.setValues lit.saved)

end Highlight

end LightingDesk
