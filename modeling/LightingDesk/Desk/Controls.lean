import LightingDesk.Clock.Span
import LightingDesk.Color.Rgb
import LightingDesk.Desk.Move
import LightingDesk.Rig.Fixture
import LightingDesk.Show.Chase

/-!
# Controls

Everything an operator has chosen so far.  What a move does to the choices depends on the
rig and on nothing that the lights show.
-/

namespace LightingDesk

/-- The operator's choices.  `selected` has a flag for every fixture and counts while lights are
being picked; `workingSet` holds the places of the picked fixtures, in order. -/
structure Controls where
  mode : Mode
  cursor : Nat
  presetIndex : Nat
  staged : Staged
  channelIndex : Nat
  selected : List Bool
  workingSet : List Nat
  canEditRaw : Bool
  chaseDelay : Nat
deriving DecidableEq, Repr

namespace Controls

/-- How much one press changes the chase delay. -/
def delayStep : Nat := Span.ofMillis 10

/-- The controls of a desk that has just been switched on. -/
def start (rig : List Fixture) (delay : Nat) : Controls where
  mode := .idle
  cursor := 0
  presetIndex := 0
  staged := .preset
  channelIndex := 0
  selected := rig.map fun _ => false
  workingSet := []
  canEditRaw := false
  chaseDelay := Chase.clamp delay

/-- Whether the fixture at a place is selected. -/
def isSelected (c : Controls) (i : Nat) : Bool := c.selected.getD i false

/-- Selects nothing. -/
def deselect (c : Controls) : Controls := { c with selected := c.selected.map fun _ => false }

/-- The fixtures that the working set stands for. -/
def workingFixtures (c : Controls) (rig : List Fixture) : List Fixture :=
  c.workingSet.filterMap (rig[·]?)

/-- How many channels manual editing steps through. -/
def editableChannels (c : Controls) (rig : List Fixture) : Nat :=
  match c.workingFixtures rig with
  | f :: _ => f.count
  | [] => 0

/-- The cursor's fixture and the selected ones, in order. -/
def picked (c : Controls) (rig : List Fixture) : List Nat :=
  (List.range rig.length).filter fun i => i = c.cursor ∨ c.isSelected i

/-- Whether neighbours in a list of fixtures all have the same number of channels. -/
def sameCounts : List Fixture → Bool
  | f :: g :: rest => f.count == g.count && sameCounts (g :: rest)
  | _ => true

/-- Makes the picked fixtures the working set. -/
def commitSelection (c : Controls) (rig : List Fixture) : Controls :=
  let set := c.picked rig
  { c.deselect with
    mode := .staging
    workingSet := set
    canEditRaw := sameCounts (set.filterMap (rig[·]?))
    staged := .preset }

/-- Goes from staging to the mode that the staged choice leads to. -/
def commitStaged (c : Controls) : Controls :=
  match c.staged with
  | .rawDmx => { c with mode := .manual, channelIndex := 0 }
  | .rainbow => { c with mode := .wheel }
  | .preset => { c with mode := .preset }

/-- The channel cursor one step on, if there is a channel. -/
def turnChannel (c : Controls) (rig : List Fixture) (turn : Turn) : Controls :=
  let n := c.editableChannels rig
  if n = 0 then c else { c with channelIndex := turn.around n c.channelIndex }

/-- The choices after a move. -/
def after (rig : List Fixture) (c : Controls) : Move → Controls
  | .enterLights => { c with mode := .lights, cursor := min c.cursor (rig.length - 1) }
  | .startChase => { c with mode := .chase }
  | .enterShow chosen => { c with mode := chosen.mode }
  | .cursor turn => { c with cursor := turn.around rig.length c.cursor }
  | .toggle => { c with selected := c.selected.modify c.cursor not }
  | .clearSelection => c.deselect
  | .commitSelection => c.commitSelection rig
  | .leaveLights => { c.deselect with mode := .idle }
  | .restage turn => { c with staged := c.staged.around c.canEditRaw turn }
  | .commitStaged => c.commitStaged
  | .backToLights => { c with mode := .lights }
  | .keepEdit => { c with mode := .lights }
  | .dropEdit => { c with mode := .staging }
  | .channel turn => c.turnChannel rig turn
  | .preset turn => { c with presetIndex := turn.around Color.palette.length c.presetIndex }
  | .slower => { c with chaseDelay := min (c.chaseDelay + delayStep) Chase.maxDelay }
  | .faster => { c with chaseDelay := max (c.chaseDelay - delayStep) Chase.minDelay }
  | .stopChase => { c with mode := .idle }
  | .leaveShow => { c with mode := .idle }
  | .scene _ | .liveScene | .saveScene | .deleteScene | .raise | .lower | .blackOut => c

end Controls

end LightingDesk
