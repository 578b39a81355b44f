import LightingDesk.Proofs.Excursion

/-!
# What an idle desk shows

An idle desk shows the scene that its store stands at, with one exception: stopping a chase shows
the live scene, but leaves the store at the saved scene where it stood when the chase began.  The
lights stay astray until a scene is gone to.

    every quiet step keeps to what is shown                     (shows_step)
    an idle desk shows the scene that its store stands at
    iff it is not astray, or both scenes look the same          (idle_shows_iff)
    after a chase the two can differ                            (chase_ends_astray)
-/

namespace LightingDesk

theorem SceneRing.position_delete (r : SceneRing) : r.delete.position = none := by
  unfold delete
  split
  · rfl
  · assumption

namespace Desk

variable {σ : Type} [Sink σ]

/-- Whether the lights are astray after an input: they go astray when a chase is stopped, and are
found again when a scene is gone to. -/
def straysAt (d : Desk σ) (astray : Bool) (i : Input) : Bool :=
  match d.controls.mode, i.pressed? with
  | .chase, some .b2 => true
  | .idle, some .left | .idle, some .right => false
  | _, _ => astray

/-- Whether the lights are astray after a run. -/
def strays (d : Desk σ) (astray : Bool) : List Input → Bool
  | [] => astray
  | i :: rest => (d.step i).1.strays (d.straysAt astray i) rest

/-- The scene that an idle desk shows. -/
def sceneShown (d : Desk σ) (astray : Bool) : Frame :=
  if astray then d.scenes.ring.live else d.scenes.ring.shown

/-- What is shown while idling, and where the store stands on an excursion. -/
structure Shows (d : Desk σ) (astray : Bool) : Prop where
  idle : d.controls.mode = .idle → d.stage.frame.Agree (d.sceneShown astray)
  away : d.controls.mode ∈ awayModes → d.scenes.ring.position = none

omit [Sink σ] in
theorem sceneShown_of_live {d : Desk σ} (h : d.scenes.ring.position = none) (astray : Bool) :
    d.sceneShown astray = d.scenes.ring.live := by
  unfold sceneShown SceneRing.shown
  rw [h]
  split <;> rfl

theorem shows_of_live {d : Desk σ} (h : d.scenes.ring.position = none)
    (settled : d.controls.mode = .idle → d.Settled) (astray : Bool) : d.Shows astray := by
  refine ⟨?_, fun _ => h⟩
  intro hm
  rw [sceneShown_of_live h]
  exact settled hm

theorem shows_of_chase {d : Desk σ} (h : d.controls.mode = .chase) (astray : Bool) :
    d.Shows astray := by
  constructor
  · intro hm
    rw [h] at hm
    cases hm
  · intro hm
    rw [h] at hm
    simp [awayModes] at hm

theorem shows_of_idle {d : Desk σ} {astray : Bool} (h : d.controls.mode = .idle)
    (hs : d.stage.frame.Agree (d.sceneShown astray)) : d.Shows astray := by
  refine ⟨fun _ => hs, ?_⟩
  intro hm
  rw [h] at hm
  simp [awayModes] at hm

omit [Sink σ] in
theorem straysAt_of_unpressed {d : Desk σ} {i : Input} (h : i.pressed? = none) (astray : Bool) :
    d.straysAt astray i = astray := by
  rw [straysAt, h]
  cases d.controls.mode <;> rfl

/-! ## Steps -/

variable [LawfulSink σ]

/-- On an excursion the store stands at the live scene, which the way back to idling shows. -/
theorem shows_step_away {d : Desk σ} {i : Input} {astray astray' : Bool}
    (away : d.controls.mode ∈ awayModes) (hushed : d.Hushed) (ok : (d.step i).2 = .ok ())
    (quiet : (d.step i).1.stage.reported = d.stage.reported) (h : d.Shows astray) :
    (d.step i).1.Shows astray' := by
  obtain ⟨hring, hmode⟩ := away_step away hushed ok quiet
  refine shows_of_live ?_ ?_ astray'
  · rw [hring]
    split
    · rfl
    · exact h.away away
  · intro hm
    rcases hmode with hmode | ⟨-, settled⟩
    · rw [hm] at hmode
      simp [awayModes] at hmode
    · exact settled

/-- A chase that is stopped leaves the live scene shown, wherever the store stands. -/
theorem shows_step_chase {d : Desk σ} {i : Input} {astray : Bool}
    (chase : d.controls.mode = .chase) (ok : (d.step i).2 = .ok ())
    (quiet : (d.step i).1.stage.reported = d.stage.reported) :
    (d.step i).1.Shows (d.straysAt astray i) := by
  have hd := dealt_step d i
  generalize d.step i = out at hd ok quiet
  cases hd with
  | ignored => exact shows_of_chase chase _
  | stuck e => cases ok
  | painted color unpressed mode =>
    rw [chase] at mode
    cases mode
  | followed magnitude unpressed mode => simp [chase] at mode
  | waited span =>
    exact shows_of_chase ((congrArg Controls.mode (controls_wait d span)).trans chase) _
  | moved a m pressed asked =>
    have hq := (quiet_moved quiet).2
    have hmodes := Move.mode_mem_modes asked
    have hco := controls_clearedFor d m
    cases m with
    | slower | faster =>
      refine shows_of_chase ?_ _
      rw [controls_fulfil, hco]
      exact (Controls.mode_retime _ _).trans chase
    | stopChase =>
      have ha : d.straysAt astray i = true := by
        have hb : a = .b2 := by
          rw [chase] at asked
          cases a <;> cases asked
          rfl
        rw [straysAt, chase, pressed, hb]
      rw [ha]
      exact shows_of_idle (by rw [controls_fulfil]; rfl) (settled_showLive hq)
    | _ => simp [Move.modes, chase] at hmodes

theorem shows_step_idle {d : Desk σ} {i : Input} {astray : Bool} (idle : d.controls.mode = .idle)
    (hushed : d.Hushed) (ok : (d.step i).2 = .ok ())
    (quiet : (d.step i).1.stage.reported = d.stage.reported) (h : d.Shows astray) :
    (d.step i).1.Shows (d.straysAt astray i) := by
  have hsilent : d.piece? = none := hushed (idle ▸ .head _)
  have hd := dealt_step d i
  generalize d.step i = out at hd ok quiet
  cases hd with
  | ignored still =>
    have ha : d.straysAt astray i = astray := by
      cases hp : i.pressed? with
      | none => exact straysAt_of_unpressed hp astray
      | some a =>
        rw [straysAt, idle, hp]
        cases a with
        | left => cases still .left (.scene .back) hp (by rw [idle]; rfl)
        | right => cases still .right (.scene .ahead) hp (by rw [idle]; rfl)
        | _ => rfl
    rw [ha]
    exact h
  | stuck e => cases ok
  | painted color unpressed mode =>
    rw [idle] at mode
    cases mode
  | followed magnitude unpressed mode => simp [idle] at mode
  | waited span waits =>
    have hc := controls_wait d span
    have hs : (d.wait span).sceneShown astray = d.sceneShown astray := by
      rw [sceneShown, sceneShown, scenes_wait]
    rw [straysAt_of_unpressed (by rw [waits]; rfl)]
    refine shows_of_idle (by rw [hc]; exact idle) ?_
    intro c h1 h2
    rw [hs, ← h.idle idle c h1 h2]
    refine (within_wait d span).level_eq quiet c ?_
    rw [hsilent]
    rintro ⟨piece, hp, -⟩
    cases hp
  | moved a m pressed asked allowed =>
    rw [clearedFor_of_silent hsilent] at quiet ⊢
    have hmodes := Move.mode_mem_modes asked
    have hmode := controls_fulfil d m
    have hscenes := scenes_fulfil d m
    rw [idle] at asked
    cases m with
    | scene turn =>
      have ha : d.straysAt astray i = false := by
        rw [straysAt, idle, pressed]
        cases a <;> cases asked <;> rfl
      rw [ha]
      refine shows_of_idle (by rw [hmode]; exact idle) ?_
      cases turn
      · exact agree_showFrame (d := { d with scenes := d.scenes.next }) quiet
      · exact agree_showFrame (d := { d with scenes := d.scenes.previous }) quiet
    | liveScene =>
      refine shows_of_live (d := d.fulfil .liveScene) ?_ ?_ _
      · rw [hscenes]
        rfl
      · intro _
        exact agree_showFrame (d := d) quiet
    | saveScene =>
      have hn : d.scenes.ring.position = none := by simpa [allows] using allowed
      have hs := h.idle idle
      rw [sceneShown_of_live hn] at hs
      refine shows_of_live (d := d.fulfil .saveScene) ?_ (fun _ => hs) _
      rw [hscenes]
      exact hn
    | deleteScene =>
      refine shows_of_live ?_ ?_ _
      · rw [hscenes]
        show d.scenes.delete.ring.position = none
        rw [SceneStore.ring_delete]
        exact d.scenes.ring.position_delete
      · intro _
        exact settled_showLive (d := { d with scenes := d.scenes.delete }) quiet
    | enterLights =>
      refine shows_of_live ?_ ?_ _
      · rw [hscenes]
        rfl
      · intro hm
        rw [hmode] at hm
        cases hm
    | enterShow chosen =>
      refine shows_of_live ?_ ?_ _
      · rw [hscenes]
        rfl
      · intro hm
        rw [hmode] at hm
        cases chosen <;> cases hm
    | startChase => exact shows_of_chase (by rw [hmode]; rfl) _
    | _ => simp [Move.modes, idle] at hmodes

theorem shows_step {d : Desk σ} {i : Input} {astray : Bool} (hushed : d.Hushed)
    (ok : (d.step i).2 = .ok ()) (quiet : (d.step i).1.stage.reported = d.stage.reported)
    (h : d.Shows astray) : (d.step i).1.Shows (d.straysAt astray i) := by
  cases hm : d.controls.mode with
  | idle => exact shows_step_idle hm hushed ok quiet h
  | chase => exact shows_step_chase hm ok quiet
  | _ => exact shows_step_away (by rw [hm]; decide) hushed ok quiet h

/-! ## Runs -/

theorem shows_run {d : Desk σ} {astray : Bool} (hushed : d.Hushed) (h : d.Shows astray)
    {inputs : List Input} (smooth : d.Smooth inputs)
    (quiet : (d.run inputs).stage.reported = d.stage.reported) :
    (d.run inputs).Shows (d.strays astray inputs) := by
  induction inputs generalizing d astray with
  | nil => exact h
  | cons i rest ih =>
    obtain ⟨hi, hrest⟩ := quiet_cons quiet
    exact ih (hushed_step d i hushed) (shows_step hushed smooth.1 hi h) smooth.2 hrest

/-- A desk that has been switched on dark, with any saved scenes, shows while idling the scene that
its store stands at, or the live scene where it is astray.  So it shows what it should exactly if
it is not astray, or if the live scene looks the same. -/
theorem idle_shows_iff {rig : List Fixture} {sink : σ} (dark : (Sink.frame sink).Agree Frame.dark)
    {scenes : SceneStore} {saved : List Frame} (hscenes : scenes.ring = SceneRing.ofScenes saved)
    {delay stopLimit : Nat} {dice : Nat → Color} {inputs : List Input}
    (smooth : (start rig sink scenes delay stopLimit dice).Smooth inputs) {d : Desk σ}
    (hd : d = (start rig sink scenes delay stopLimit dice).run inputs)
    (quiet : d.stage.reported = 0) (idle : d.controls.mode = .idle) {astray : Bool}
    (ha : astray = (start rig sink scenes delay stopLimit dice).strays false inputs) :
    d.stage.frame.Agree (if astray then d.scenes.ring.live else d.scenes.ring.shown) ∧
      (d.stage.frame.Agree d.scenes.ring.shown ↔
        astray = false ∨ d.scenes.ring.live.Agree d.scenes.ring.shown) := by
  have first : (start rig sink scenes delay stopLimit dice).Shows false := by
    refine shows_of_live (congrArg SceneRing.position hscenes) ?_ false
    intro _
    have hlive : scenes.ring.live = Frame.dark := congrArg SceneRing.live hscenes
    show (Sink.frame sink).Agree scenes.ring.live
    rw [hlive]
    exact dark
  have hs : d.Shows astray := by
    rw [ha, hd]
    rw [hd] at quiet
    exact shows_run (fun _ => rfl) first smooth quiet
  have hshown := hs.idle idle
  refine ⟨hshown, ?_⟩
  cases astray with
  | false => exact ⟨fun _ => .inl rfl, fun _ => hshown⟩
  | true =>
    have hlive : d.stage.frame.Agree d.scenes.ring.live := hshown
    constructor
    · intro h
      exact .inr fun c h1 h2 => (hlive c h1 h2).symm.trans (h c h1 h2)
    · rintro (h | h)
      · cases h
      · exact fun c h1 h2 => (hlive c h1 h2).trans (h c h1 h2)

/-- A dark desk with two saved scenes. -/
def twoScenes : Desk Frame :=
  start [] Frame.dark (.inMemory [Frame.dark.put 1 10, Frame.dark.put 2 20]) 0 0 fun _ => .white

/-- Goes to the first scene, plays a chase and goes to the next scene. -/
def chaseAndGoOn : List Input :=
  [.press .right, .press .b2, .wait 1000000000, .press .b2, .press .right]

theorem idle_shows_iff_twoScenes :
    (twoScenes.run chaseAndGoOn).scenes.ring.position = some 1 ∧
      (twoScenes.run chaseAndGoOn).stage.frame.Agree
        (twoScenes.run chaseAndGoOn).scenes.ring.shown := by
  have smooth : twoScenes.Smooth chaseAndGoOn := by decide +kernel
  have quiet := quiet_of_reliable (d := twoScenes) (reliable_frame _) chaseAndGoOn
  have found : false = twoScenes.strays false chaseAndGoOn := by decide +kernel
  have idle : (twoScenes.run chaseAndGoOn).controls.mode = .idle := by decide +kernel
  refine ⟨by decide +kernel, ?_⟩
  have all := idle_shows_iff (fun _ _ _ => rfl) rfl smooth rfl quiet idle found
  exact all.2.2 (.inl rfl)

/-- Goes to the first scene and plays a chase. -/
def chaseFromFirst : List Input := [.press .right, .press .b2, .press .b2]

/-- When the chase is over the store still stands at the first scene, but the lights are dark. -/
theorem chase_ends_astray :
    twoScenes.Smooth chaseFromFirst ∧ (twoScenes.run chaseFromFirst).stage.reported = 0 ∧
      (twoScenes.run chaseFromFirst).controls.mode = .idle ∧
      (twoScenes.run chaseFromFirst).scenes.ring.position = some 0 ∧
      ¬ (twoScenes.run chaseFromFirst).stage.frame.Agree
        (twoScenes.run chaseFromFirst).scenes.ring.shown := by
  refine ⟨by decide +kernel, by decide +kernel, by decide +kernel, by decide +kernel, ?_⟩
  intro h
  have h1 := h 1 (by decide) (by decide)
  revert h1
  decide +kernel

end Desk

end LightingDesk
