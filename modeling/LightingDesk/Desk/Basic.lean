import LightingDesk.Color.Wheel
import LightingDesk.Desk.Controls
import LightingDesk.Desk.Motion
import LightingDesk.Remote.Packet
import LightingDesk.Scene.Store
import LightingDesk.Show.Playback

/-!
# The desk

A desk joins a rig of fixtures, a stage, a scene store and the operator's choices, and plays
at most one effect.  A move is carried out in four steps: the playing effect is stopped if
the move asks for that, the scenes and the lights are prepared, the choices change, and what
follows from the new choices is started.  When the effect does not stop, none of the other
steps is taken, and only the effect is gone.
-/

namespace LightingDesk

/-- A desk at a time.  `dice` gives the random colors of the party in the order they are drawn. -/
structure Desk (σ : Type) where
  rig : List Fixture
  stage : Stage σ
  scenes : SceneStore
  controls : Controls
  playing : Option Playback
  stopLimit : Nat
  now : Nat
  dice : Nat → Color
  drawn : Nat

/-- Something that a desk tells about a move besides its new state. -/
inductive Notice
  | channel (index : Nat)
  | rawEditing (possible : Bool)
deriving DecidableEq, Repr

namespace Desk

variable {σ : Type} [Sink σ]

/-- A desk that has just been switched on. -/
def start (rig : List Fixture) (sink : σ) (scenes : SceneStore) (delay stopLimit : Nat)
    (dice : Nat → Color) : Desk σ where
  rig
  stage := ⟨sink, 0⟩
  scenes
  controls := .start rig delay
  playing := none
  stopLimit
  now := 0
  dice
  drawn := 0

/-! ## The stage -/

/-- Does jobs in the desk's own name. -/
def play (d : Desk σ) (jobs : List Job) : Desk σ := { d with stage := d.stage.play .desk jobs }

/-- Shows a frame. -/
def showFrame (d : Desk σ) (frame : Frame) : Desk σ := d.play [[.whole frame]]

/-- Shows the live scene. -/
def showLive (d : Desk σ) : Desk σ := d.showFrame d.scenes.ring.live

/-- Makes what the lights show the live scene. -/
def captureFrame (d : Desk σ) : Desk σ := { d with scenes := d.scenes.capture d.stage.frame }

/-- The fixtures of the working set. -/
def workingFixtures (d : Desk σ) : List Fixture := d.controls.workingFixtures d.rig

/-- Shows a color on the working set. -/
def paint (d : Desk σ) (color : Color) : Desk σ :=
  d.play (d.workingFixtures.map (·.setColor color))

/-- Shows the preset color on the working set, at full dimmer. -/
def paintPreset (d : Desk σ) : Desk σ :=
  let color := Color.palette.getD d.controls.presetIndex .black
  d.play (d.workingFixtures.flatMap fun f => [f.setColor color, f.setDimmer 255])

/-- Changes the edited channel of each fixture of the working set, as far as it has one. -/
def adjust (d : Desk σ) (change : UInt8 → UInt8) : Desk σ :=
  let index := d.controls.channelIndex
  d.play (d.workingFixtures.filterMap fun f =>
    (f.values d.stage.frame)[index]?.map fun v => f.setChannel index (change v))

/-- How much one press changes a level in manual editing. -/
def levelStep : Nat := 5

/-- A level one press up. -/
def louder (v : UInt8) : UInt8 := (min (v.toNat + levelStep) 255).toUInt8

/-- A level one press down. -/
def softer (v : UInt8) : UInt8 := (v.toNat - levelStep).toUInt8

/-- Lets every fixture follow the controller's motion: in random colors at a party, and else in
white. -/
def follow (d : Desk σ) (magnitude : Nat) : Desk σ :=
  let atParty := d.controls.mode = .party
  let level := (if atParty then MotionTable.party else MotionTable.scary).level magnitude
  let lit := d.rig.zipIdx.flatMap fun (f, i) =>
    [f.setColor (if atParty then d.dice (d.drawn + i) else .white), f.setDimmer level]
  { d.play lit with drawn := if atParty then d.drawn + d.rig.length else d.drawn }

/-! ## The effect -/

/-- Starts an effect in place of the one that was playing. -/
def begin (d : Desk σ) (effect : Effect) : Desk σ :=
  let started := Playback.start effect d.now d.stage
  { d with playing := some started.1, stage := started.2 }

/-- Stops the effect.  It is gone even when it did not stop in time. -/
def stopEffect (d : Desk σ) : Desk σ × Except StopError Unit :=
  match d.playing with
  | none => (d, .ok ())
  | some playback =>
    let stopped := playback.stop d.stopLimit d.stage
    ({ d with stage := stopped.1, playing := none }, stopped.2)

/-- Highlights the cursor's fixture. -/
def startHighlight (d : Desk σ) : Desk σ :=
  let i := d.controls.cursor
  match d.rig[i]? with
  | some f => d.begin (.highlight (Highlight.empty.add i f d.stage.frame))
  | none => d.begin (.highlight .empty)

/-- Previews the staged choice on the working set. -/
def startPreview (d : Desk σ) : Desk σ :=
  match d.controls.staged with
  | .rawDmx => d.begin (.pulse (.start d.workingFixtures d.stage.frame))
  | .rainbow => d.begin (.cycle (.start .rainbow d.workingFixtures))
  | .preset => d.begin (.cycle (.start .presets d.workingFixtures))

/-- Plays the saved scenes, if there are enough. -/
def startChase (d : Desk σ) : Desk σ :=
  match Chase.start? d.scenes.ring.saved d.controls.chaseDelay with
  | some chase => d.begin (.chase chase)
  | none => d

/-- Changes the playing effect, which then looks at the clock again. -/
def retune (d : Desk σ) (p : Playback) (effect : Effect) (stage : Stage σ) : Desk σ :=
  let checked := Playback.recheck { p with effect } d.now stage
  { d with playing := some checked.1, stage := checked.2 }

/-- Changes the highlight, if one is playing. -/
def editHighlight (d : Desk σ) (edit : Highlight × Stage σ → Highlight × Stage σ) : Desk σ :=
  match d.playing with
  | some p =>
    match p.effect with
    | .highlight h =>
      let edited := edit (h, d.stage)
      d.retune p (.highlight edited.1) edited.2
    | _ => d
  | none => d

/-- Takes a fixture out of a highlight. -/
def dropLight (i : Nat) (h : Highlight × Stage σ) : Highlight × Stage σ :=
  let (h', jobs) := h.1.remove i
  (h', h.2.play .desk jobs)

/-- Lets the highlight follow the cursor to another place; a fixture that is left behind stays
highlighted if it is selected. -/
def pointAt (d : Desk σ) (i : Nat) : Desk σ :=
  match d.rig[i]? with
  | some f =>
    d.editHighlight fun h =>
      let old := d.controls.cursor
      let (h, stage) := if d.controls.isSelected old then h else dropLight old h
      (h.askResync.add i f stage.frame, stage)
  | none => d

/-- Highlights nothing but the cursor's fixture. -/
def pointOnly (d : Desk σ) : Desk σ :=
  d.editHighlight fun h =>
    (h.1.indices.filter (· ≠ d.controls.cursor)).foldl (fun h i => dropLight i h) h

/-- Gives the playing chase the delay that has been chosen. -/
def passDelay (d : Desk σ) : Desk σ :=
  match d.playing with
  | some p =>
    match p.effect with
    | .chase c => d.retune p (.chase (c.setDelay d.controls.chaseDelay)) d.stage
    | _ => d
  | none => d

/-! ## Moves -/

/-- Whether there is anything for a move to do. -/
def allows (d : Desk σ) : Move → Bool
  | .enterLights => !d.rig.isEmpty
  | .cursor _ => !d.rig.isEmpty
  | .startChase => 2 ≤ d.scenes.ring.count
  | .saveScene => d.scenes.ring.position.isNone
  | .deleteScene => d.scenes.canDelete
  | .commitStaged => d.controls.staged ≠ .rawDmx ∨ d.controls.canEditRaw
  | _ => true

/-- What a move does to scenes and lights before the choices change. -/
def prepare (d : Desk σ) : Move → Desk σ
  | .scene turn =>
    let scenes := match turn with
      | .ahead => d.scenes.next
      | .back => d.scenes.previous
    { d with scenes }.showFrame scenes.ring.shown
  | .liveScene => { d.showLive with scenes := d.scenes.capture d.scenes.ring.live }
  | .saveScene => { d with scenes := d.scenes.append d.stage.frame }
  | .deleteScene => { d with scenes := d.scenes.delete }.showLive
  | .enterLights | .enterShow _ | .keepEdit => d.captureFrame
  | .commitSelection | .leaveLights | .restage _ | .backToLights | .dropEdit | .stopChase
  | .leaveShow => d.showLive
  | .commitStaged => if d.controls.staged = .rawDmx then d.showLive else d
  | .cursor turn => d.pointAt (turn.around d.rig.length d.controls.cursor)
  | .clearSelection => d.pointOnly
  | .raise => d.adjust louder
  | .lower => d.adjust softer
  | .blackOut => d.play (d.workingFixtures.map (·.clear))
  | .toggle | .startChase | .channel _ | .preset _ | .slower | .faster => d

/-- What a move starts or shows after the choices have changed. -/
def conclude (d : Desk σ) : Move → Desk σ
  | .enterLights | .backToLights | .keepEdit => d.startHighlight
  | .commitSelection | .restage _ | .dropEdit => d.startPreview
  | .startChase => d.startChase
  | .preset _ => d.paintPreset
  | .slower | .faster => d.passDelay
  | _ => d

/-- A move whose effect, if any had to be, has been stopped. -/
def fulfil (d : Desk σ) (m : Move) : Desk σ :=
  let d := d.prepare m
  conclude { d with controls := d.controls.after d.rig m } m

/-- Carries out a move. -/
def carryOut (d : Desk σ) (m : Move) : Desk σ × Except StopError Unit :=
  if d.allows m then
    if m.stopsEffect then
      match d.stopEffect with
      | (d', .ok ()) => (d'.fulfil m, .ok ())
      | (d', .error e) => (d', .error e)
    else (d.fulfil m, .ok ())
  else (d, .ok ())

/-- What there is to tell about a move that has been carried out. -/
def notice? (d : Desk σ) : Move → Option Notice
  | .channel _ =>
    if d.controls.editableChannels d.rig = 0 then none else some (.channel d.controls.channelIndex)
  | .commitSelection => some (.rawEditing d.controls.canEditRaw)
  | _ => none

/-! ## Packets and time -/

/-- The move that a packet asks for. -/
def asked (d : Desk σ) (packet : Packet) : Option Move :=
  match packet.kind, packet.payload with
  | .data, .userAction code => (Action.ofCode? code).bind (Move.of? d.controls.mode)
  | _, _ => none

/-- Handles a packet.  The answer says whether the controller has to hear the mode at once:
because it changed, or because the packet's payload has no place in it. -/
def handle (d : Desk σ) (packet : Packet) : Desk σ × Except StopError Bool :=
  match packet.kind, packet.payload with
  | .data, .userAction _ =>
    match d.asked packet with
    | some m =>
      let moved := d.carryOut m
      (moved.1, moved.2.map fun _ => moved.1.controls.mode ≠ d.controls.mode)
    | none => (d, .ok false)
  | .data, .joystick x y =>
    if d.controls.mode = .wheel then (d.paint (Color.wheel x.toInt y.toInt), .ok false)
    else (d, .ok true)
  | .data, .gyro x y z =>
    if d.controls.mode = .party ∨ d.controls.mode = .scary then
      (d.follow (gyroMagnitude x y z), .ok false)
    else (d, .ok true)
  | .data, _ => (d, .ok true)
  | .poll, _ => (d, .ok false)
  | .pollReply, _ => (d, .ok false)

/-- Lets time pass. -/
def wait (d : Desk σ) (span : Nat) : Desk σ :=
  let stop := d.now + span
  match d.playing with
  | some p =>
    let waited := p.wait stop d.stage
    { d with playing := some waited.1, stage := waited.2, now := stop }
  | none => { d with now := stop }

/-- Switches the desk off. -/
def shutdown (d : Desk σ) : Desk σ × Except StopError Unit := d.stopEffect

end Desk

end LightingDesk
