import LightingDesk.Proofs.Idling
import LightingDesk.Proofs.Performers

/-!
# The course of a desk

The course of a desk is what presses decide: the choices, how many scenes are saved, where the store
stands, and which places are highlighted.  It goes on by itself: a press changes it by
`Course.press`, whatever the lights show, whatever fails, and whatever else the desk is given in
between.

    an input changes the course as its press does, or not at all      (course_step)
    a run changes the course as its presses do                        (course_run)
    so desks that are given the same presses stay on the same course  (presses_decide)
-/

namespace LightingDesk

/-- The moves that highlight fixtures, or leave them highlighted. -/
def Move.highlights : Move → Bool
  | enterLights | backToLights | keepEdit | cursor _ | toggle | clearSelection => true
  | _ => false

/-! ## Outlines -/

/-- The kind of a piece and the fixtures it is played on, in order; for a chase its delay. -/
inductive Outline
  | highlight (lights : List (Nat × Fixture))
  | cycle (sequence : Sequence) (fixtures : List Fixture)
  | pulse (fixtures : List Fixture)
  | chase (delay : Nat)
deriving DecidableEq

/-- A piece without the levels that it saves or shows. -/
def Piece.outline : Piece → Outline
  | highlight lights => .highlight (lights.map fun lit => (lit.index, lit.fixture))
  | cycle sequence fixtures => .cycle sequence fixtures
  | pulse lights => .pulse (lights.map Prod.fst)
  | chase _ delay => .chase delay

theorem filterMap_placed {rig : List Fixture} {lights : List Lit} (h : Placed rig lights) :
    (lights.map (·.index)).filterMap (fun i => rig[i]?.map (i, ·)) =
      lights.map fun lit => (lit.index, lit.fixture) := by
  rw [List.filterMap_map, ← List.filterMap_eq_map]
  refine List.filterMap_congr ?_
  intro lit hl
  simp [h.fixture_eq lit hl]

theorem SceneRing.count_delete {r : SceneRing} (h : r.position.isSome) :
    r.delete.count = r.count - 1 := by
  obtain ⟨i, hi⟩ := Option.isSome_iff_exists.1 h
  have hlt := r.position_lt i hi
  unfold delete count
  simp only [hi]
  exact List.length_eraseIdx_of_lt hlt

/-! ## Courses -/

/-- What presses decide: the choices, the number of saved scenes, the place among them, and the
highlighted places, oldest first. -/
@[ext]
structure Course where
  controls : Controls
  count : Nat
  position : Option Nat
  places : List Nat

namespace Course

/-- Whether there is anything for a move to do. -/
def allows (rig : List Fixture) (c : Course) : Move → Bool
  | .enterLights | .cursor _ => !rig.isEmpty
  | .startChase => 2 ≤ c.count
  | .saveScene => c.position.isNone
  | .deleteScene => c.position.isSome
  | .commitStaged => c.controls.staged ≠ .rawDmx ∨ c.controls.canEditRaw
  | _ => true

/-- How many scenes are saved after a move. -/
def countAfter (c : Course) : Move → Nat
  | .saveScene => c.count + 1
  | .deleteScene => c.count - 1
  | _ => c.count

/-- Where the store stands after a move. -/
def positionAfter (c : Course) : Move → Option Nat
  | .scene .ahead => SceneRing.ahead c.count c.position
  | .scene .back => SceneRing.back c.count c.position
  | .liveScene | .deleteScene | .enterLights | .enterShow _ | .keepEdit => none
  | _ => c.position

/-- The places that stay highlighted when the cursor moves on. -/
def kept (c : Course) : List Nat :=
  if c.controls.isSelected c.controls.cursor then c.places else c.places.erase c.controls.cursor

/-- The highlighted places after a move. -/
def placesAfter (rig : List Fixture) (c : Course) : Move → List Nat
  | .enterLights => [min c.controls.cursor (rig.length - 1)]
  | .backToLights | .keepEdit => [c.controls.cursor]
  | .cursor turn =>
    let i := turn.around rig.length c.controls.cursor
    if i ∈ c.kept then c.kept else c.kept ++ [i]
  | .clearSelection => c.places.diff (c.places.filter (· ≠ c.controls.cursor))
  | .toggle => c.places
  | _ => []

/-- The course after a move. -/
def after (rig : List Fixture) (c : Course) (m : Move) : Course where
  controls := c.controls.after rig m
  count := c.countAfter m
  position := c.positionAfter m
  places := c.placesAfter rig m

/-- The course after a press. -/
def press (rig : List Fixture) (c : Course) (a : Action) : Course :=
  match Move.of? c.controls.mode a with
  | some m => if c.allows rig m then c.after rig m else c
  | none => c

/-- Whether each of some presses changes the mode. -/
def turns (rig : List Fixture) (c : Course) : List Action → List Bool
  | [] => []
  | a :: rest =>
    decide ((c.press rig a).controls.mode ≠ c.controls.mode) :: (c.press rig a).turns rig rest

/-- The outline of what has to be playing. -/
def outline? (rig : List Fixture) (c : Course) : Option Outline :=
  match c.controls.mode with
  | .lights => some (.highlight (c.places.filterMap fun i => rig[i]?.map (i, ·)))
  | .staging =>
    match c.controls.staged with
    | .rawDmx => some (.pulse (c.controls.workingFixtures rig))
    | .rainbow => some (.cycle .rainbow (c.controls.workingFixtures rig))
    | .preset => some (.cycle .presets (c.controls.workingFixtures rig))
  | .chase => some (.chase c.controls.chaseDelay)
  | .idle | .wheel | .manual | .preset | .party | .scary => none

end Course

namespace Desk

variable {σ : Type} [Sink σ]

/-- The highlighted places, oldest first. -/
def places (d : Desk σ) : List Nat := d.lights.map (·.index)

/-- The desk's course. -/
def course (d : Desk σ) : Course :=
  ⟨d.controls, d.scenes.ring.count, d.scenes.ring.position, d.places⟩

omit [Sink σ] in
theorem allows_course (d : Desk σ) (m : Move) : d.course.allows d.rig m = d.allows m := by
  cases m <;> rfl

omit [Sink σ] in
/-- What plays has the outline that the course calls for. -/
theorem outline_of_tuned {d : Desk σ} (tuned : d.Tuned) :
    d.piece?.map Piece.outline = d.course.outline? d.rig := by
  have h := tuned
  unfold Tuned Controls.CallsFor at h
  unfold Course.outline? course
  cases hm : d.controls.mode with
  | lights =>
    simp only [hm] at h ⊢
    obtain ⟨lights, hp, ha⟩ := h
    have hl : d.places = lights.map (·.index) := by rw [places, lights_eq hp]
    rw [hp, hl, filterMap_placed ha.placed]
    rfl
  | staging =>
    simp only [hm] at h ⊢
    cases hs : d.controls.staged with
    | rawDmx =>
      simp only [hs] at h ⊢
      obtain ⟨lights, hp, hw⟩ := h
      rw [hp, ← hw]
      rfl
    | rainbow | preset =>
      simp only [hs] at h ⊢
      rw [h]
      rfl
  | _ =>
    simp only [hm] at h ⊢
    rw [h]
    rfl

omit [Sink σ] in
theorem places_of_piece? {d : Desk σ} {lights : List Lit}
    (h : d.piece? = some (.highlight lights)) : d.places = lights.map (·.index) := by
  rw [places, lights_eq h]

omit [Sink σ] in
/-- Nothing is highlighted unless lights are being picked. -/
theorem places_of_mode {d : Desk σ} (tuned : d.Tuned) (hm : d.controls.mode ≠ .lights) :
    d.places = [] := by
  have hl : d.lights = [] := by
    unfold lights
    split
    · rename_i lights hp
      exact absurd ((highlight_iff_lights tuned).1 ⟨lights, hp⟩) hm
    · rfl
  rw [places, hl]
  rfl

/-! ## Moves -/

/-- A highlight that has been edited highlights the places that the edit leaves. -/
theorem places_retune (d : Desk σ) (p : Playback) (h : Highlight) (s : Stage σ) (c : Controls) :
    ((d.retune p (.highlight h) s).choose c).places = h.indices := by
  have hp : ((d.retune p (.highlight h) s).choose c).piece? = some (.highlight h.lights) :=
    (piece?_choose _ c).trans (piece?_retune d p (.highlight h) s)
  rw [places_of_piece? hp]
  rfl

theorem indices_leave (c : Controls) (h : Highlight × Stage σ) :
    (leave c h).1.indices =
      if c.isSelected c.cursor then h.1.indices else h.1.indices.erase c.cursor := by
  unfold leave
  split
  · rfl
  · exact h.1.indices_remove c.cursor

theorem indices_add (h : Highlight) (i : Nat) (f : Fixture) (frame : Frame) :
    (h.add i f frame).indices = if i ∈ h.indices then h.indices else h.indices ++ [i] := by
  by_cases hi : i ∈ h.indices
  · rw [Highlight.indices, Highlight.lights_add, if_pos hi, if_pos hi]
    rfl
  · rw [Highlight.indices, Highlight.lights_add, if_neg hi, if_neg hi, List.map_append]
    rfl

theorem places_pointAt {d : Desk σ} (tuned : d.Tuned) (hm : d.controls.mode = .lights) {i : Nat}
    (hi : i < d.rig.length) (c : Controls) :
    ((d.pointAt i).choose c).places =
      if i ∈ d.course.kept then d.course.kept else d.course.kept ++ [i] := by
  have hf : d.rig[i]? = some d.rig[i] := List.getElem?_eq_getElem hi
  obtain ⟨lights, hp, -⟩ := (Controls.callsFor_lights hm).1 tuned
  obtain ⟨p, hl, rfl, he⟩ := pointAt_eq hp hf
  have hk : (leave d.controls (hl, d.stage)).1.indices = d.course.kept := by
    rw [indices_leave, Course.kept]
    show _ = if d.controls.isSelected d.controls.cursor then d.places else d.places.erase _
    rw [places_of_piece? hp]
    rfl
  rw [he, places_retune, indices_add]
  show (if i ∈ (leave d.controls (hl, d.stage)).1.indices then
    (leave d.controls (hl, d.stage)).1.indices
    else (leave d.controls (hl, d.stage)).1.indices ++ [i]) = _
  rw [hk]

theorem places_pointOnly {d : Desk σ} (tuned : d.Tuned) (hm : d.controls.mode = .lights)
    (c : Controls) :
    (d.pointOnly.choose c).places =
      d.places.diff (d.places.filter (· ≠ d.controls.cursor)) := by
  obtain ⟨lights, hp, -⟩ := (Controls.callsFor_lights hm).1 tuned
  obtain ⟨p, hl, rfl, he⟩ := editHighlight_eq hp fun h =>
    (h.1.indices.filter (· ≠ d.controls.cursor)).foldl (fun h i => dropLight i h) h
  rw [pointOnly, he, places_retune, indices_drop, places_of_piece? hp]
  rfl

theorem places_startHighlight {d : Desk σ} (hc : d.controls.cursor < d.rig.length) :
    d.startHighlight.places = [d.controls.cursor] := by
  have hf : d.rig[d.controls.cursor]? = some d.rig[d.controls.cursor] :=
    List.getElem?_eq_getElem hc
  simp only [startHighlight, hf]
  have hp := piece?_begin d
    (.highlight (Highlight.empty.add d.controls.cursor d.rig[d.controls.cursor] d.stage.frame))
  exact places_of_piece? hp

omit [Sink σ] in
/-- A move that does not highlight anything leads away from picking lights. -/
theorem mode_after_ne_lights {c : Controls} {rig : List Fixture} {m : Move} (hm : c.mode ∈ m.modes)
    (hh : m.highlights = false) : (c.after rig m).mode ≠ .lights := by
  cases m with
  | channel turn =>
    obtain ⟨index, hindex⟩ := c.turnChannel_eq rig turn
    rw [Controls.after, hindex]
    simp_all [Move.modes]
  | slower | faster =>
    rw [Controls.after, Controls.mode_retime]
    simp_all [Move.modes]
  | commitStaged =>
    unfold Controls.after Controls.commitStaged
    dsimp only
    split <;> simp
  | enterShow chosen => cases chosen <;> simp [Controls.after, MotionShow.mode]
  | _ => simp_all [Controls.after, Move.modes, Move.highlights, Controls.deselect,
      Controls.commitSelection]

/-- A move highlights the places that the course says. -/
theorem places_fulfil {d : Desk σ} {m : Move} (hm : d.controls.mode ∈ m.modes)
    (sound : (d.controls.after d.rig m).Sound d.rig) (tuned : m.stopsEffect = false → d.Tuned)
    (tuned' : (d.fulfil m).Tuned) : (d.fulfil m).places = d.course.placesAfter d.rig m := by
  have hmode := controls_fulfil d m
  have hfulfil := fulfil_eq d m
  cases m with
  | enterLights | backToLights | keepEdit =>
    rw [hfulfil]
    exact places_startHighlight (sound.cursor_lt (sound.rig_ne rfl))
  | cursor turn =>
    have hl : d.controls.mode = .lights := by simpa [Move.modes] using hm
    have hr : 0 < d.rig.length := List.length_pos_iff.2 (sound.rig_ne hl)
    rw [hfulfil]
    exact places_pointAt (tuned rfl) hl (Turn.around_lt hr _ turn) _
  | clearSelection =>
    have hl : d.controls.mode = .lights := by simpa [Move.modes] using hm
    rw [hfulfil]
    exact places_pointOnly (tuned rfl) hl _
  | toggle => rfl
  | _ =>
    refine places_of_mode tuned' ?_
    rw [hmode]
    exact mode_after_ne_lights hm rfl

/-- The store goes on as the course says. -/
theorem ring_scenesAfter {d : Desk σ} {m : Move} (allowed : d.allows m = true) :
    (d.scenesAfter m).ring.count = d.course.countAfter m ∧
      (d.scenesAfter m).ring.position = d.course.positionAfter m := by
  cases m with
  | scene turn => cases turn <;> exact ⟨rfl, rfl⟩
  | saveScene => exact ⟨List.length_append, rfl⟩
  | deleteScene =>
    show d.scenes.delete.ring.count = _ ∧ d.scenes.delete.ring.position = _
    rw [SceneStore.ring_delete]
    exact ⟨SceneRing.count_delete allowed, SceneRing.position_delete _⟩
  | _ => exact ⟨rfl, rfl⟩

theorem course_fulfil {d : Desk σ} {m : Move} (hm : d.controls.mode ∈ m.modes)
    (allowed : d.allows m = true) (sound : (d.controls.after d.rig m).Sound d.rig)
    (tuned : m.stopsEffect = false → d.Tuned) (tuned' : (d.fulfil m).Tuned) :
    (d.fulfil m).course = d.course.after d.rig m := by
  obtain ⟨hcount, hposition⟩ := ring_scenesAfter allowed
  have hscenes := scenes_fulfil d m
  refine Course.ext ?_ ?_ ?_ ?_
  · exact controls_fulfil d m
  · exact (congrArg (·.ring.count) hscenes).trans hcount
  · exact (congrArg (·.ring.position) hscenes).trans hposition
  · exact places_fulfil hm sound tuned tuned'

/-- A move that stops the effect does not go by what was highlighted. -/
theorem after_clearedFor (d : Desk σ) (m : Move) :
    (d.clearedFor m).course.after d.rig m = d.course.after d.rig m := by
  have hc := controls_clearedFor d m
  have hs := scenes_clearedFor d m
  by_cases h : m.stopsEffect = true
  · have hp : (d.clearedFor m).course.placesAfter d.rig m = d.course.placesAfter d.rig m := by
      cases m with
      | enterLights | backToLights | keepEdit =>
        unfold Course.placesAfter course
        dsimp only
        rw [hc]
      | cursor | toggle | clearSelection => cases h
      | _ => rfl
    unfold Course.after
    rw [hp]
    unfold course Course.countAfter Course.positionAfter
    dsimp only
    rw [hc, hs]
  · rw [clearedFor, if_neg h]

/-! ## Inputs -/

theorem course_wait (d : Desk σ) (span : Nat) : (d.wait span).course = d.course := by
  unfold course places lights
  rw [controls_wait, scenes_wait, piece?_wait]

/-- An input changes the course as its press does, or not at all. -/
theorem course_step {d : Desk σ} {i : Input} (ok : (d.step i).2 = .ok ())
    (sound : d.controls.Sound d.rig) (tuned : d.Tuned) :
    (d.step i).1.course = i.pressed?.elim d.course (d.course.press d.rig) := by
  have tuned' := tuned_step d i ok sound tuned
  have sound' := sound_step d i sound
  have hd := dealt_step d i
  generalize d.step i = out at hd ok tuned' sound'
  cases hd with
  | stuck e => cases ok
  | painted color unpressed =>
    rw [unpressed]
    rfl
  | followed magnitude unpressed =>
    rw [unpressed]
    rfl
  | waited span waits =>
    rw [waits]
    exact course_wait d span
  | ignored idle =>
    cases hp : i.pressed? with
    | none => rfl
    | some a =>
      show d.course = d.course.press d.rig a
      unfold Course.press
      cases hm : Move.of? d.course.controls.mode a with
      | none => rfl
      | some m =>
        dsimp only
        rw [allows_course, idle a m hp hm]
        rfl
  | moved a m pressed asked allowed =>
    have hc := controls_clearedFor d m
    have hr := rig_clearedFor d m
    have hpress : d.course.press d.rig a = d.course.after d.rig m := by
      have hm : Move.of? d.course.controls.mode a = some m := asked
      simp only [Course.press, hm, allows_course, allowed, if_true]
    rw [pressed]
    show _ = d.course.press d.rig a
    rw [hpress, ← after_clearedFor, ← hr]
    refine course_fulfil ?_ ?_ ?_ ?_ tuned'
    · rw [hc]
      exact Move.mode_mem_modes asked
    · rw [allows_clearedFor]
      exact allowed
    · rw [← controls_fulfil, ← rig_fulfil]
      exact sound'
    · intro hs
      rw [clearedFor, if_neg (by simp [hs])]
      exact tuned

/-! ## Runs -/

/-- The answers to the presses among some inputs. -/
def answers (d : Desk σ) : List Input → List (Except StopError Bool)
  | [] => []
  | .wait span :: rest => (d.wait span).answers rest
  | .packet p :: rest =>
    match (Input.packet p).pressed? with
    | some _ => (d.handle p).2 :: (d.handle p).1.answers rest
    | none => (d.handle p).1.answers rest

theorem course_run {d : Desk σ} (sound : d.controls.Sound d.rig) (tuned : d.Tuned)
    {inputs : List Input} (smooth : d.Smooth inputs) :
    (d.run inputs).course =
      (inputs.filterMap Input.pressed?).foldl (Course.press d.rig) d.course := by
  induction inputs generalizing d with
  | nil => rfl
  | cons i rest ih =>
    have hs := sound_step d i sound
    have ht := tuned_step d i smooth.1 sound tuned
    show ((d.step i).1.run rest).course = _
    rw [ih hs ht smooth.2, course_step smooth.1 sound tuned, rig_step]
    cases hp : i.pressed? with
    | none => rw [List.filterMap_cons_none hp]; rfl
    | some a => rw [List.filterMap_cons_some hp]; rfl

/-- A press is answered by whether it changes the mode. -/
theorem answer_of_pressed {d : Desk σ} {p : Packet} {a : Action}
    (pressed : (Input.packet p).pressed? = some a) (ok : (d.step (.packet p)).2 = .ok ()) :
    (d.handle p).2 = .ok (decide ((d.step (.packet p)).1.controls.mode ≠ d.controls.mode)) := by
  match p, pressed with
  | ⟨.data, mode, .userAction code⟩, _ =>
    cases ha : d.asked ⟨.data, mode, .userAction code⟩ with
    | none =>
      have hh : d.handle ⟨.data, mode, .userAction code⟩ = (d, .ok false) := by
        simp only [handle, ha]
      simp [step, hh]
    | some m =>
      have hs := step_of_asked ha
      have hh : (d.handle ⟨.data, mode, .userAction code⟩).2 = (d.carryOut m).2.map fun _ =>
          decide ((d.carryOut m).1.controls.mode ≠ d.controls.mode) := by
        simp only [handle, ha]
      rw [hs] at ok ⊢
      rw [hh, ok]
      rfl

/-- The presses are answered by whether they change the mode of the course. -/
theorem answers_run {d : Desk σ} (sound : d.controls.Sound d.rig) (tuned : d.Tuned)
    {inputs : List Input} (smooth : d.Smooth inputs) :
    d.answers inputs = (d.course.turns d.rig (inputs.filterMap Input.pressed?)).map .ok := by
  induction inputs generalizing d with
  | nil => rfl
  | cons i rest ih =>
    have hc := course_step smooth.1 sound tuned
    have hr := ih (sound_step d i sound) (tuned_step d i smooth.1 sound tuned) smooth.2
    rw [rig_step] at hr
    match i with
    | .wait span => exact hr.trans (by rw [hc]; rfl)
    | .packet p =>
      cases hp : (Input.packet p).pressed? with
      | none =>
        rw [hp] at hc
        rw [List.filterMap_cons_none hp]
        simp only [answers, hp]
        exact hr.trans (by rw [hc]; rfl)
      | some a =>
        have ha := answer_of_pressed hp smooth.1
        have hm : (d.step (.packet p)).1.controls = (d.course.press d.rig a).controls := by
          rw [hp] at hc
          exact congrArg Course.controls hc
        rw [hp] at hc
        rw [List.filterMap_cons_some hp]
        simp only [answers, hp, Course.turns, List.map_cons]
        rw [ha, hm]
        refine congrArg _ (hr.trans ?_)
        rw [hc]
        rfl

variable {σ' : Type} [Sink σ']

/-- Two desks with one rig and one delay, whose stores save equally many scenes and stand at the
same place, take the same course when they are given the same presses: whatever their sinks do,
whatever the scenes hold, and whatever else they are given in between.  Their choices are the same,
what plays has the same outline, their stores save equally many scenes and stand at the same place,
and each press has had the same answer. -/
theorem presses_decide (rig : List Fixture) (delay : Nat) (sink : σ) (sink' : σ')
    (scenes scenes' : SceneStore) (stopLimit stopLimit' : Nat) (dice dice' : Nat → Color)
    (inputs inputs' : List Input) (counts : scenes.ring.count = scenes'.ring.count)
    (positions : scenes.ring.position = scenes'.ring.position)
    (presses : inputs.filterMap Input.pressed? = inputs'.filterMap Input.pressed?)
    {d : Desk σ} (hd : d = start rig sink scenes delay stopLimit dice)
    {d' : Desk σ'} (hd' : d' = start rig sink' scenes' delay stopLimit' dice')
    (smooth : d.Smooth inputs) (smooth' : d'.Smooth inputs') :
    (d.run inputs).controls = (d'.run inputs').controls ∧
      (d.run inputs).piece?.map Piece.outline = (d'.run inputs').piece?.map Piece.outline ∧
      (d.run inputs).scenes.ring.count = (d'.run inputs').scenes.ring.count ∧
      (d.run inputs).scenes.ring.position = (d'.run inputs').scenes.ring.position ∧
      d.answers inputs = d'.answers inputs' := by
  have sound : d.controls.Sound d.rig := by rw [hd]; exact Controls.sound_start rig delay
  have sound' : d'.controls.Sound d'.rig := by rw [hd']; exact Controls.sound_start rig delay
  have tuned : d.Tuned := by rw [hd]; exact tuned_start ..
  have tuned' : d'.Tuned := by rw [hd']; exact tuned_start ..
  have hrig : d.rig = d'.rig := by rw [hd, hd']; rfl
  have hstart : d.course = d'.course := by
    rw [hd, hd']
    exact Course.ext rfl counts positions rfl
  have hcourse : (d.run inputs).course = (d'.run inputs').course := by
    rw [course_run sound tuned smooth, course_run sound' tuned' smooth', hstart, hrig, presses]
  refine ⟨congrArg Course.controls hcourse, ?_, congrArg Course.count hcourse,
    congrArg Course.position hcourse, ?_⟩
  · rw [outline_of_tuned (tuned_run tuned sound smooth),
      outline_of_tuned (tuned_run tuned' sound' smooth'), hcourse, rig_run, rig_run, hrig]
  · rw [answers_run sound tuned smooth, answers_run sound' tuned' smooth', hstart, hrig, presses]

/-- Two lamps with a saved scene that is bright on a channel, on a recorder that refuses the second
lamp's color. -/
def brightLamps : Desk Recorder :=
  start [lamp 17, lamp 21] (.failingAt Frame.dark (Recorder.reasonAt [22] "loose"))
    (.inMemory [Frame.dark.put 1 200]) 0 7 fun _ => .white

/-- The same lamps with a dark scene, on which every write succeeds. -/
def dimLamps : Desk Frame :=
  start [lamp 17, lamp 21] Frame.dark (.inMemory [Frame.dark]) 0 0 fun _ => .white

/-- Saves a scene, picks both lamps and stages the pulse. -/
def stagePulse : List Input :=
  [.press .ps2, .press .b1, .press .ps2, .press .right, .press .b1, .press .right]

/-- The same presses, with other packets and waiting in between. -/
def stagePulseSlowly : List Input :=
  [.packet ⟨.poll, 3, .empty⟩, .press .ps2, .packet ⟨.data, 0, .gyro 5 (-4) 3⟩, .press .b1,
    .wait 30000000, .press .ps2, .packet ⟨.data, 0, .userAction 255⟩, .press .right, .press .b1,
    .packet ⟨.data, 9, .joystick 70 (-70)⟩, .press .right]

theorem presses_decide_stagePulse :
    (brightLamps.run stagePulse).scenes.ring.count = 2 ∧
      (dimLamps.run stagePulseSlowly).scenes.ring.count = 2 ∧
      (brightLamps.run stagePulse).piece?.map Piece.outline =
        some (.pulse [lamp 17, lamp 21]) ∧
      (dimLamps.run stagePulseSlowly).piece?.map Piece.outline =
        some (.pulse [lamp 17, lamp 21]) := by
  have smooth : brightLamps.Smooth stagePulse := by decide +kernel
  have smooth' : dimLamps.Smooth stagePulseSlowly := by decide +kernel
  have hcount : (brightLamps.run stagePulse).scenes.ring.count = 2 := by decide +kernel
  have houtline : (brightLamps.run stagePulse).piece?.map Piece.outline =
      some (.pulse [lamp 17, lamp 21]) := by decide +kernel
  have hd : brightLamps = start _ _ _ 0 _ _ := rfl
  have hd' : dimLamps = start _ _ _ 0 _ _ := rfl
  obtain ⟨-, outlines, counts, -, -⟩ := presses_decide _ _ _ _ _ _ _ _ _ _ stagePulse
    stagePulseSlowly (by decide) (by decide) (by decide) hd hd' smooth smooth'
  exact ⟨hcount, counts ▸ hcount, houtline, outlines ▸ houtline⟩

end Desk

end LightingDesk
