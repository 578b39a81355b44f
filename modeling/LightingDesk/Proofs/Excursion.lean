import LightingDesk.Proofs.Quiet

/-!
# Excursions

An excursion leads from idling through picking lights, or through one of the shows, back to idling.
On the way the live scene is captured when it begins and whenever an edit is kept; everything else
that is done to the lights on the way is gone in the end.

    away from idling and chasing, only keeping an edit changes the scenes,
    and the way back to idling shows the live scene                        (away_step)
    an excursion ends with the lights as they were captured last           (excursion_restores)
-/

namespace LightingDesk.Desk

variable {σ : Type} [Sink σ]

/-- Whether an input keeps an edit: B1 is pressed in one of the editing modes. -/
def keeps (d : Desk σ) (i : Input) : Bool :=
  i.pressed? == some .b1 && [Mode.wheel, .manual, .preset].contains d.controls.mode

/-- What the lights showed just before the last edit that was kept, or else the frame given. -/
def captured (d : Desk σ) (shown : Frame) : List Input → Frame
  | [] => shown
  | i :: rest => (d.step i).1.captured (if d.keeps i then d.stage.frame else shown) rest

/-- Whether the first time that the desk is idle again is after the last input. -/
def ComesBack (d : Desk σ) : List Input → Prop
  | [] => False
  | i :: rest =>
    if (d.step i).1.controls.mode = .idle then rest = [] else (d.step i).1.ComesBack rest

instance decidableComesBack : (d : Desk σ) → (inputs : List Input) → Decidable (d.ComesBack inputs)
  | _, [] => .isFalse id
  | d, i :: rest =>
    have := decidableComesBack (d.step i).1 rest
    inferInstanceAs (Decidable (if (d.step i).1.controls.mode = .idle then rest = []
      else (d.step i).1.ComesBack rest))

/-! ## Steps -/

theorem clearedFor_of_silent {d : Desk σ} (h : d.piece? = none) (m : Move) :
    d.clearedFor m = d := by
  have hp : d.playing = none := Option.map_eq_none_iff.1 h
  unfold clearedFor
  split
  · simp only [stopEffect, hp]
  · rfl

theorem of?_eq_keepEdit_iff {mode : Mode} {a : Action} :
    Move.of? mode a = some .keepEdit ↔ a = .b1 ∧ mode ∈ [Mode.wheel, .manual, .preset] := by
  cases mode <;> cases a <;> decide

omit [Sink σ] in
theorem keeps_iff {d : Desk σ} {i : Input} {a : Action} (pressed : i.pressed? = some a) :
    d.keeps i = true ↔ Move.of? d.controls.mode a = some .keepEdit := by
  rw [of?_eq_keepEdit_iff, keeps, pressed]
  simp

omit [Sink σ] in
theorem keeps_of_unpressed {d : Desk σ} {i : Input} (unpressed : i.pressed? = none) :
    d.keeps i = false := by
  rw [keeps, unpressed]
  rfl

/-- The scenes after a move that can be asked for away from idling. -/
theorem scenesAfter_of_away {d : Desk σ} {m : Move} (hm : d.controls.mode ∈ m.modes)
    (hi : d.controls.mode ≠ .idle) (hk : m ≠ .keepEdit) : d.scenesAfter m = d.scenes := by
  cases m with
  | keepEdit => exact absurd rfl hk
  | scene | liveScene | saveScene | deleteScene | enterLights | enterShow =>
    simp only [Move.modes, List.mem_singleton] at hm
    exact absurd hm hi
  | _ => rfl

/-- The modes that an excursion leads through. -/
def awayModes : List Mode := [.lights, .staging, .wheel, .manual, .preset, .party, .scary]

theorem mode_after_away {c : Controls} {rig : List Fixture} {m : Move} (hm : c.mode ∈ m.modes)
    (ha : c.mode ∈ awayModes) : (c.after rig m).mode ∈ awayModes ∨ m = .leaveLights ∨
      m = .leaveShow := by
  cases m with
  | leaveLights | leaveShow => simp
  | channel turn =>
    obtain ⟨index, hindex⟩ := c.turnChannel_eq rig turn
    rw [Controls.after, hindex]
    exact .inl ha
  | commitStaged =>
    left
    unfold Controls.after Controls.commitStaged
    dsimp only
    split <;> simp [awayModes]
  | _ => simp_all [Controls.after, Move.modes, awayModes, Controls.deselect,
      Controls.commitSelection]

variable [LawfulSink σ]

/-- Away from idling and chasing, the scenes change only by a capture when an edit is kept, and the
way back to idling shows the live scene. -/
theorem away_step {d : Desk σ} {i : Input} (away : d.controls.mode ∈ awayModes)
    (hushed : d.Hushed) (ok : (d.step i).2 = .ok ())
    (quiet : (d.step i).1.stage.reported = d.stage.reported) :
    (d.step i).1.scenes.ring =
        (if d.keeps i then d.scenes.ring.capture d.stage.frame else d.scenes.ring) ∧
      ((d.step i).1.controls.mode ∈ awayModes ∨
        (d.step i).1.controls.mode = .idle ∧ (d.step i).1.Settled) := by
  have hd := dealt_step d i
  generalize d.step i = out at hd ok quiet
  cases hd with
  | ignored idle =>
    have hk : ¬ d.keeps i = true := by
      intro hk
      cases hp : i.pressed? with
      | none => rw [keeps_of_unpressed hp] at hk; cases hk
      | some a => cases idle a .keepEdit hp ((keeps_iff hp).1 hk)
    rw [if_neg hk]
    exact ⟨rfl, .inl away⟩
  | stuck e => cases ok
  | painted color unpressed =>
    rw [keeps_of_unpressed unpressed]
    exact ⟨rfl, .inl away⟩
  | followed magnitude unpressed =>
    rw [keeps_of_unpressed unpressed]
    exact ⟨rfl, .inl away⟩
  | waited span waits =>
    rw [keeps_of_unpressed (by rw [waits]; rfl), scenes_wait, controls_wait]
    exact ⟨rfl, .inl away⟩
  | moved a m pressed asked allowed =>
    have hmodes := Move.mode_mem_modes asked
    have hi : d.controls.mode ≠ .idle := fun h => by simp [awayModes, h] at away
    have hsc := scenes_clearedFor d m
    have hco := controls_clearedFor d m
    rw [scenes_fulfil, controls_fulfil]
    constructor
    · by_cases hk : m = .keepEdit
      · subst hk
        have hsilent : d.controls.mode ∈ silentModes := by
          simp only [Move.modes, List.mem_cons, List.not_mem_nil, or_false] at hmodes
          simp only [silentModes, List.mem_cons]
          tauto
        rw [if_pos ((keeps_iff pressed).2 asked), clearedFor_of_silent (hushed hsilent)]
        rfl
      · have hn : ¬ d.keeps i = true := by
          rw [keeps_iff pressed, asked]
          exact fun h => hk (Option.some.inj h)
        rw [if_neg hn, scenesAfter_of_away (by rwa [hco]) (by rwa [hco]) hk, hsc]
    · rw [hco]
      refine (mode_after_away hmodes away).imp_right ?_
      have hq := (quiet_moved quiet).2
      rintro (rfl | rfl)
      · exact ⟨rfl, settled_showLive hq⟩
      · exact ⟨rfl, settled_showLive hq⟩

omit [LawfulSink σ] in
/-- The way out of idling captures what the lights show. -/
theorem leaving_step {d : Desk σ} {i : Input} {a : Action} (idle : d.controls.mode = .idle)
    (hushed : d.Hushed) (pressed : i.pressed? = some a)
    (ha : a ∈ [Action.b1, .konami, .reverseKonami]) (ok : (d.step i).2 = .ok ())
    (left : (d.step i).1.controls.mode ≠ .idle) :
    (d.step i).1.scenes.ring = d.scenes.ring.capture d.stage.frame ∧
      (d.step i).1.controls.mode ∈ awayModes := by
  have hsilent : d.piece? = none := hushed (idle ▸ .head _)
  have hd := dealt_step d i
  generalize d.step i = out at hd ok left
  cases hd with
  | ignored => exact absurd idle left
  | stuck e => cases ok
  | painted color unpressed => rw [pressed] at unpressed; cases unpressed
  | followed magnitude unpressed => rw [pressed] at unpressed; cases unpressed
  | waited span waits => rw [waits] at pressed; cases pressed
  | moved a' m pressed' asked =>
    rw [pressed] at pressed'
    cases pressed'
    rw [idle] at asked
    rw [scenes_fulfil, controls_fulfil, clearedFor_of_silent hsilent]
    simp only [List.mem_cons, List.not_mem_nil, or_false] at ha
    constructor
    · rcases ha with rfl | rfl | rfl <;> cases asked <;> rfl
    · rcases ha with rfl | rfl | rfl <;> cases asked <;> simp [Controls.after, awayModes,
        MotionShow.mode]

/-! ## Runs -/

/-- The way back to idling, from where a frame has been captured. -/
theorem settled_of_comesBack {d : Desk σ} {ring : SceneRing} {shown : Frame}
    (away : d.controls.mode ∈ awayModes) (hushed : d.Hushed)
    (hring : d.scenes.ring = ring.capture shown) {inputs : List Input} (back : d.ComesBack inputs)
    (smooth : d.Smooth inputs) (quiet : (d.run inputs).stage.reported = d.stage.reported) :
    (d.run inputs).Settled ∧
      (d.run inputs).scenes.ring = ring.capture (d.captured shown inputs) := by
  induction inputs generalizing d shown with
  | nil => cases back
  | cons i rest ih =>
    obtain ⟨hi, hrest⟩ := quiet_cons quiet
    obtain ⟨hr, hmode⟩ := away_step away hushed smooth.1 hi
    have hring' : (d.step i).1.scenes.ring =
        ring.capture (if d.keeps i then d.stage.frame else shown) := by
      rw [hr, hring]
      split <;> rfl
    rw [ComesBack] at back
    by_cases hidle : (d.step i).1.controls.mode = .idle
    · rw [if_pos hidle] at back
      subst back
      have hn : (d.step i).1.controls.mode ∉ awayModes := by
        rw [hidle]
        decide
      exact ⟨(hmode.resolve_left hn).2, hring'⟩
    · rw [if_neg hidle] at back
      have haway := hmode.resolve_right fun h => hidle h.1
      exact ih haway (hushed_step d i hushed) hring' back smooth.2 hrest

/-- An excursion from any idle desk ends with the lights, and the live scene, as they were captured
last; and with the scenes that were saved before. -/
theorem excursion_restores {d : Desk σ} (reachable : d.Reachable)
    (idle : d.controls.mode = .idle) {first : Input} {a : Action}
    (pressed : first.pressed? = some a) (ha : a ∈ [Action.b1, .konami, .reverseKonami])
    (left : (d.step first).1.controls.mode ≠ .idle) {rest : List Input}
    (back : (d.step first).1.ComesBack rest) (smooth : d.Smooth (first :: rest))
    (quiet : (d.run (first :: rest)).stage.reported = d.stage.reported) :
    (d.run (first :: rest)).stage.frame.Agree (d.captured d.stage.frame (first :: rest)) ∧
      (d.run (first :: rest)).scenes.ring.live = d.captured d.stage.frame (first :: rest) ∧
      (d.run (first :: rest)).scenes.ring.position = none ∧
      (d.run (first :: rest)).scenes.ring.saved = d.scenes.ring.saved := by
  have hushed := hushed_of_reachable reachable
  obtain ⟨hi, hrest⟩ := quiet_cons quiet
  obtain ⟨hring, haway⟩ := leaving_step idle hushed pressed ha smooth.1 left
  have hk : d.keeps first = false := by simp [keeps, idle]
  have hc : d.captured d.stage.frame (first :: rest) =
      (d.step first).1.captured d.stage.frame rest := by
    rw [captured, hk]
    rfl
  obtain ⟨settled, hend⟩ :=
    settled_of_comesBack haway (hushed_step d first hushed) hring back smooth.2 hrest
  have hlive : ((d.step first).1.run rest).scenes.ring.live =
      (d.step first).1.captured d.stage.frame rest := by
    rw [hend]
    rfl
  have hposition := congrArg SceneRing.position hend
  have hsaved := congrArg SceneRing.saved hend
  rw [hc, ← hlive]
  exact ⟨settled, rfl, hposition, hsaved⟩

/-- A dark desk with one lamp, and nothing saved. -/
def oneLamp : Desk Frame :=
  start [⟨"lamp", 1, ["red", "green", "blue"], (by decide : ¬ "lamp" = ""), by decide, Nat.one_pos,
    by decide, by decide, by decide⟩] Frame.dark (.inMemory []) 0 0 fun _ => .white

/-- Picks the lamp, gives it a preset color, keeps that and goes back. -/
def paintLamp : List Input :=
  [.press .b1, .press .b1, .press .b1, .press .right, .press .b1, .press .b2]

theorem excursion_restores_oneLamp :
    (oneLamp.run paintLamp).stage.frame.Agree (oneLamp.captured oneLamp.stage.frame paintLamp) := by
  have left : (oneLamp.step (.press .b1)).1.controls.mode ≠ .idle := by decide +kernel
  have back : (oneLamp.step (.press .b1)).1.ComesBack paintLamp.tail := by decide +kernel
  have smooth : oneLamp.Smooth paintLamp := by decide +kernel
  have quiet : (oneLamp.run paintLamp).stage.reported = oneLamp.stage.reported :=
    quiet_of_reliable (d := oneLamp) (reliable_frame _) paintLamp
  have reachable : oneLamp.Reachable := ⟨_, _, _, _, _, _, [], rfl⟩
  have all := excursion_restores reachable rfl (a := .b1) rfl (.head _) left back smooth quiet
  exact all.1

end LightingDesk.Desk
