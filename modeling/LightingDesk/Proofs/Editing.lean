import LightingDesk.Proofs.Onset

/-!
# Manual editing

An editor of levels has a table with a level for every channel and a cursor that goes round in a
circle; it knows no lights, no writes and no desk.  From the way into manual editing to the way out
of it, a desk does what this editor does: the table begins with the live scene, and the lights show
it after every input.

    a move of manual editing does to the lights what it does to
    the table                                                       (level_adjust, level_blackOut)
    every input keeps desk and editor together                      (tracks_step)
    manual editing is editing the table                             (manual_edits_table)
-/

namespace LightingDesk

instance (f : Fixture) (c : Nat) : Decidable (f.Owns c) := inferInstanceAs (Decidable (_ ∧ _))

/-! ## The editor -/

/-- A table with a level for every channel, and a cursor. -/
structure Editor where
  cursor : Nat
  levels : Nat → Nat

namespace Editor

/-- An editor that has just been given a frame. -/
def opened (f : Frame) : Editor := ⟨0, fun c => (f.level c).toNat⟩

/-- What the editor makes of a press, for fixtures of `n` channels each.  Up and down change the
cursor's channel of each fixture, as far as levels go. -/
def press (fixtures : List Fixture) (n : Nat) (e : Editor) : Action → Editor
  | .right => { e with cursor := (e.cursor + 1) % n }
  | .left => { e with cursor := (e.cursor + n - 1) % n }
  | .up =>
    { e with
      levels := fun c =>
        if ∃ f ∈ fixtures, c = f.address + e.cursor then min 255 (e.levels c + 5) else e.levels c }
  | .down =>
    { e with
      levels := fun c =>
        if ∃ f ∈ fixtures, c = f.address + e.cursor then e.levels c - 5 else e.levels c }
  | .ps2 => { e with levels := fun c => if ∃ f ∈ fixtures, f.Owns c then 0 else e.levels c }
  | _ => e

/-- What the editor makes of an input: all but presses it ignores. -/
def take (fixtures : List Fixture) (n : Nat) (e : Editor) (i : Input) : Editor :=
  i.pressed?.elim e (e.press fixtures n)

/-- What the editor makes of inputs, one after the other. -/
def takeAll (fixtures : List Fixture) (n : Nat) (e : Editor) (inputs : List Input) : Editor :=
  inputs.foldl (take fixtures n) e

/-- How often an action is pressed. -/
def presses (a : Action) (inputs : List Input) : Nat :=
  inputs.countP (·.pressed? = some a)

theorem presses_cons (a : Action) (i : Input) (rest : List Input) :
    presses a (i :: rest) = (if i.pressed? = some a then 1 else 0) + presses a rest := by
  unfold presses
  rw [List.countP_cons, Nat.add_comm]
  simp only [decide_eq_true_eq]

theorem cursor_take (fixtures : List Fixture) {n : Nat} {e : Editor} (he : e.cursor < n)
    (i : Input) : (e.take fixtures n i).cursor < n ∧
      ((e.take fixtures n i).cursor : Int) =
        (e.cursor + (if i.pressed? = some .right then 1 else 0 : Nat) -
          (if i.pressed? = some .left then 1 else 0 : Nat)) % n := by
  have hn : 0 < n := by omega
  have stay : (e.cursor : Int) = (e.cursor + (0 : Nat) - (0 : Nat)) % n := by
    rw [Int.emod_eq_of_lt] <;> omega
  unfold take
  cases i.pressed? with
  | none => exact ⟨he, stay⟩
  | some a =>
    cases a with
    | right =>
      refine ⟨Nat.mod_lt _ hn, ?_⟩
      rw [if_pos rfl, if_neg (by decide)]
      show (((e.cursor + 1) % n : Nat) : Int) = _
      rw [Int.natCast_emod, Int.natCast_add, Int.natCast_zero, Int.sub_zero]
    | left =>
      refine ⟨Nat.mod_lt _ hn, ?_⟩
      rw [if_neg (by decide), if_pos rfl]
      show (((e.cursor + n - 1) % n : Nat) : Int) = _
      have back : ((e.cursor + n - 1 : Nat) : Int) = e.cursor + (0 : Nat) - (1 : Nat) + n := by
        omega
      rw [Int.natCast_emod, back, Int.add_emod_right]
    | _ => exact ⟨he, stay⟩

/-- The cursor stands where the presses to both sides have led it. -/
theorem cursor_takeAll (fixtures : List Fixture) {n : Nat} {e : Editor} (he : e.cursor < n)
    (inputs : List Input) : (e.takeAll fixtures n inputs).cursor < n ∧
      ((e.takeAll fixtures n inputs).cursor : Int) =
        (e.cursor + presses .right inputs - presses .left inputs) % n := by
  induction inputs generalizing e with
  | nil =>
    refine ⟨he, ?_⟩
    show (e.cursor : Int) = (e.cursor + (0 : Nat) - (0 : Nat)) % n
    rw [Int.emod_eq_of_lt] <;> omega
  | cons i rest ih =>
    obtain ⟨hlt, hi⟩ := cursor_take fixtures he i
    obtain ⟨hlast, hrest⟩ := ih hlt
    refine ⟨hlast, ?_⟩
    rw [presses_cons, presses_cons]
    refine hrest.trans ?_
    rw [hi, Int.add_sub_assoc, Int.emod_add_emod]
    congr 1
    push_cast
    omega

end Editor

/-! ## Fixtures in manual editing -/

namespace Fixture

variable {f : Fixture}

theorem level_clear {c : Nat} (h : f.Owns c) (g : Frame) :
    (f.clear.foldl Frame.apply g).level c = 0 := by
  have hv : List.replicate f.count 0 = f.values Frame.dark := by
    refine (List.eq_replicate_iff.2 ⟨Frame.length_slice _ _ _, fun v hv => ?_⟩).symm
    obtain ⟨i, -, rfl⟩ := List.mem_map.1 hv
    exact Frame.level_dark _
  rw [clear, hv, level_setValues f g Frame.dark h, Frame.level_dark]

end Fixture

/-! ## Choices in manual editing -/

namespace Controls

variable {c : Controls} {rig : List Fixture}

/-- There is a channel to be edited. -/
theorem editableChannels_pos (sound : c.Sound rig) (hm : c.mode = .manual) :
    0 < c.editableChannels rig := by
  obtain ⟨i, hi⟩ := List.exists_mem_of_ne_nil _ (sound.workingSet_ne (by rw [hm]; rfl))
  have hlt := sound.workingSet_lt i hi
  have hmem : rig[i] ∈ c.workingFixtures rig :=
    List.mem_filterMap.2 ⟨i, hi, List.getElem?_eq_getElem hlt⟩
  rw [← count_eq_editableChannels sound hm _ hmem]
  exact rig[i].channels_pos

/-- The only way into manual editing puts the cursor on the first channel. -/
theorem channelIndex_after {m : Move} (before : c.mode ≠ .manual) (hm : c.mode ∈ m.modes)
    (entered : (c.after rig m).mode = .manual) : (c.after rig m).channelIndex = 0 := by
  cases m with
  | commitStaged =>
    unfold after commitStaged at *
    cases hs : c.staged <;> simp_all
  | channel turn =>
    simp only [Move.modes, List.mem_singleton] at hm
    exact absurd hm before
  | enterShow chosen => cases chosen <;> cases entered
  | enterLights | startChase | commitSelection | leaveLights | backToLights | keepEdit | dropEdit
  | stopChase | leaveShow => cases entered
  | slower | faster =>
    rw [after, mode_retime] at entered
    exact absurd entered before
  | _ => exact absurd entered before

end Controls

namespace Desk

variable {σ : Type} [Sink σ] [LawfulSink σ]

/-! ## What moves do to the lights -/

theorem toNat_louder (v : UInt8) : (louder v).toNat = min 255 (v.toNat + 5) := by
  unfold louder levelStep
  rw [Nat.toUInt8_eq, UInt8.toNat_ofNat']
  omega

theorem toNat_softer (v : UInt8) : (softer v).toNat = v.toNat - 5 := by
  have := v.toNat_lt
  unfold softer levelStep
  rw [Nat.toUInt8_eq, UInt8.toNat_ofNat']
  omega

theorem level_adjust {d : Desk σ} {change : UInt8 → UInt8}
    (inside : ∀ f ∈ d.workingFixtures, d.controls.channelIndex < f.count)
    (quiet : (d.adjust change).stage.reported = d.stage.reported) (c : Nat) :
    (d.adjust change).stage.frame.level c =
      if ∃ f ∈ d.workingFixtures, c = f.address + d.controls.channelIndex
        then change (d.stage.frame.level c) else d.stage.frame.level c := by
  have hjobs : (d.workingFixtures.filterMap fun f =>
      (f.values d.stage.frame)[d.controls.channelIndex]?.map fun v =>
        f.setChannel d.controls.channelIndex (change v)) =
      d.workingFixtures.map fun f => f.setChannel d.controls.channelIndex
        (change (d.stage.frame.level (f.address + d.controls.channelIndex))) := by
    rw [← List.filterMap_eq_map]
    refine List.filterMap_congr fun f hf => ?_
    rw [Fixture.getElem?_values (inside f hf)]
    rfl
  have hframe : (d.adjust change).stage.frame = d.stage.frame.after (d.workingFixtures.map fun f =>
      f.setChannel d.controls.channelIndex
        (change (d.stage.frame.level (f.address + d.controls.channelIndex)))) := by
    rw [← hjobs]
    exact Stage.frame_play quiet
  rw [hframe]
  refine level_after_map _ (P := fun f c => c = f.address + d.controls.channelIndex)
    (v := fun c => change (d.stage.frame.level c)) (fun f hf g c hc => ?_)
    (fun f hf c ht => ?_) d.stage.frame c
  · rw [hc]
    exact Fixture.level_setChannel (inside f hf) _ g
  · exact ((Fixture.staysIn_setChannel f _ _).touches c ht).2

theorem level_blackOut {d : Desk σ}
    (quiet : (d.play (d.workingFixtures.map (·.clear))).stage.reported = d.stage.reported)
    (c : Nat) :
    (d.play (d.workingFixtures.map (·.clear))).stage.frame.level c =
      if ∃ f ∈ d.workingFixtures, f.Owns c then 0 else d.stage.frame.level c := by
  have hframe : (d.play (d.workingFixtures.map (·.clear))).stage.frame =
      d.stage.frame.after (d.workingFixtures.map (·.clear)) := Stage.frame_play quiet
  rw [hframe]
  exact level_after_map _ (P := Fixture.Owns) (v := fun _ => 0)
    (fun f _ g c hc => Fixture.level_clear hc g)
    (fun f _ c ht => (Fixture.staysIn_setValues f _).touches c ht) d.stage.frame c

/-! ## Desk and editor -/

/-- A desk at which manual editing goes on, on a sink on which no write fails. -/
structure Manual (d : Desk σ) : Prop where
  mode : d.controls.mode = .manual
  sound : d.controls.Sound d.rig
  silent : d.piece? = none
  reliable : Sink.Reliable d.stage.sink

/-- How many channels each fixture has at a desk at which manual editing goes on. -/
def channelCount (d : Desk σ) : Nat := d.controls.editableChannels d.rig

/-- Whether a desk at which manual editing has gone on since `first` is where an editor is: the
choices are the first ones but for the cursor, the lights show the table, and writes have only been
made to the working set. -/
structure Tracks (first : Desk σ) (e : Editor) (d : Desk σ) : Prop where
  rig_eq : d.rig = first.rig
  controls_eq : d.controls = { first.controls with channelIndex := e.cursor }
  scenes_eq : d.scenes = first.scenes
  silent : d.piece? = none
  cursor_lt : e.cursor < first.channelCount
  level_eq : ∀ c, 1 ≤ c → c ≤ universeSize → (d.stage.frame.level c).toNat = e.levels c
  within : first.stage.Within (fun c => ∃ f ∈ first.workingFixtures, f.Owns c) d.stage

variable {first d : Desk σ} {e : Editor}

omit [LawfulSink σ] in
theorem Tracks.workingFixtures_eq (h : first.Tracks e d) :
    d.workingFixtures = first.workingFixtures := by
  unfold workingFixtures Controls.workingFixtures
  rw [h.controls_eq, h.rig_eq]

omit [LawfulSink σ] in
theorem tracks_turn (manual : first.Manual) (h : first.Tracks e d) (turn : Turn) :
    first.Tracks { e with cursor := turn.around first.channelCount e.cursor }
      (d.fulfil (.channel turn)) := by
  have hpos : 0 < first.channelCount := Controls.editableChannels_pos manual.sound manual.mode
  have hn : d.controls.editableChannels d.rig = first.channelCount := by
    rw [h.controls_eq, h.rig_eq]
    rfl
  refine ⟨h.rig_eq, ?_, h.scenes_eq, h.silent, Turn.around_lt hpos _ _, h.level_eq, h.within⟩
  show d.controls.turnChannel d.rig turn = _
  rw [Controls.turnChannel, hn, if_neg (Nat.ne_of_gt hpos), h.controls_eq]

/-- A press up or down changes the lights as it changes the table. -/
theorem tracks_adjust (manual : first.Manual) (h : first.Tracks e d) {change : UInt8 → UInt8}
    (shift : Nat → Nat) (hs : ∀ v, (change v).toNat = shift v.toNat) :
    first.Tracks
      { e with
        levels := fun c =>
          if ∃ f ∈ first.workingFixtures, c = f.address + e.cursor then shift (e.levels c)
          else e.levels c }
      (d.adjust change) := by
  have index : d.controls.channelIndex = e.cursor := by rw [h.controls_eq]
  have inside : ∀ f ∈ d.workingFixtures, d.controls.channelIndex < f.count := by
    intro f hf
    rw [h.workingFixtures_eq] at hf
    rw [index, Controls.count_eq_editableChannels manual.sound manual.mode f hf]
    exact h.cursor_lt
  have step := within_adjust d change
  rw [h.workingFixtures_eq] at step
  have quiet := (step.reliable (h.within.reliable manual.reliable).2).1
  refine ⟨h.rig_eq, h.controls_eq, h.scenes_eq, h.silent, h.cursor_lt, fun c h1 h2 => ?_,
    h.within.trans step⟩
  rw [level_adjust inside quiet, h.workingFixtures_eq, index]
  dsimp only
  split
  · rw [hs, h.level_eq c h1 h2]
  · exact h.level_eq c h1 h2

theorem tracks_blackOut (manual : first.Manual) (h : first.Tracks e d) :
    first.Tracks
      { e with levels := fun c => if ∃ f ∈ first.workingFixtures, f.Owns c then 0 else e.levels c }
      (d.play (d.workingFixtures.map (·.clear))) := by
  have step := within_blackOut d
  rw [h.workingFixtures_eq] at step
  have quiet := (step.reliable (h.within.reliable manual.reliable).2).1
  rw [← h.workingFixtures_eq] at quiet
  refine ⟨h.rig_eq, h.controls_eq, h.scenes_eq, h.silent, h.cursor_lt, fun c h1 h2 => ?_, ?_⟩
  · rw [level_blackOut quiet, h.workingFixtures_eq]
    dsimp only
    split
    · rfl
    · exact h.level_eq c h1 h2
  · rw [h.workingFixtures_eq]
    exact h.within.trans step

/-- Every input but the two that end manual editing does to desk and editor the same. -/
theorem tracks_step (manual : first.Manual) (h : first.Tracks e d) {i : Input}
    (stays : i.pressed? ≠ some .b1 ∧ i.pressed? ≠ some .b2) :
    first.Tracks (e.take first.workingFixtures first.channelCount i) (d.step i).1 := by
  have hm : d.controls.mode = .manual := by
    rw [h.controls_eq]
    exact manual.mode
  have hd := dealt_step d i
  generalize d.step i = out at hd
  unfold Editor.take
  cases hd with
  | ignored idle =>
    -- what is ignored has no meaning in manual editing, for the editor as well
    cases hp : i.pressed? with
    | none => exact h
    | some a =>
      rw [hm] at idle
      cases a with
      | left => cases idle .left _ hp rfl
      | right => cases idle .right _ hp rfl
      | up => cases idle .up _ hp rfl
      | down => cases idle .down _ hp rfl
      | ps2 => cases idle .ps2 _ hp rfl
      | _ => exact h
  | stuck error failed =>
    rw [stopEffect, show d.playing = none from Option.map_eq_none_iff.1 h.silent] at failed
    cases failed
  | painted color unpressed mode => cases hm.symm.trans mode
  | followed magnitude unpressed mode => rcases mode with mode | mode <;> cases hm.symm.trans mode
  | waited span waits =>
    have hp : d.playing = none := Option.map_eq_none_iff.1 h.silent
    have hw : d.wait span = { d with now := d.now + span } := by simp only [wait, hp]
    rw [waits, hw]
    exact ⟨h.rig_eq, h.controls_eq, h.scenes_eq, h.silent, h.cursor_lt, h.level_eq, h.within⟩
  | moved a m pressed asked =>
    rw [hm] at asked
    rw [pressed] at stays ⊢
    cases a with
    | left =>
      cases asked
      exact tracks_turn manual h .back
    | right =>
      cases asked
      exact tracks_turn manual h .ahead
    | up =>
      cases asked
      exact tracks_adjust manual h (fun v => min 255 (v + 5)) toNat_louder
    | down =>
      cases asked
      exact tracks_adjust manual h (· - 5) toNat_softer
    | ps2 =>
      cases asked
      exact tracks_blackOut manual h
    | b1 => exact absurd rfl stays.1
    | b2 => exact absurd rfl stays.2
    | _ => cases asked

theorem tracks_run (manual : first.Manual) (h : first.Tracks e d) {inputs : List Input}
    (stays : ∀ i ∈ inputs, i.pressed? ≠ some .b1 ∧ i.pressed? ≠ some .b2) :
    first.Tracks (e.takeAll first.workingFixtures first.channelCount inputs) (d.run inputs) := by
  induction inputs generalizing e d with
  | nil => exact h
  | cons i rest ih =>
    exact ih (tracks_step manual h (stays i (.head _))) fun j hj => stays j (.tail _ hj)

/-! ## The way in -/

/-- Manual editing begins with the live scene, on the first channel. -/
theorem tracks_entered {d : Desk σ} (reachable : d.Reachable)
    (reliable : Sink.Reliable d.stage.sink) {i : Input} (before : d.controls.mode ≠ .manual)
    (entered : (d.step i).1.controls.mode = .manual) :
    (d.step i).1.Manual ∧
      (d.step i).1.Tracks (.opened (d.step i).1.scenes.ring.live) (d.step i).1 := by
  have within := (within_step d i).reliable reliable
  have sound := sound_step d i (sound_of_reachable reachable)
  have silent : (d.step i).1.piece? = none :=
    hushed_step d i (hushed_of_reachable reachable) (entered ▸ by decide)
  have manual : (d.step i).1.Manual := ⟨entered, sound, silent, within.2⟩
  obtain ⟨a, m, pressed, -, moved⟩ := moved_of_entered before entered
  have ok : (d.step i).2 = .ok () := congrArg Prod.snd moved
  have ticking : (d.step i).1.isTicking = true := by
    rw [isTicking, show (d.step i).1.playing = none from Option.map_eq_none_iff.1 silent]
    rfl
  have settled := (press_begins_afresh reachable pressed ok within.1 ticking).manual entered before
  have index : (d.step i).1.controls.channelIndex = 0 := by
    rcases controls_step d i with hc | ⟨m, hm, -, hc⟩
    · rw [hc] at entered
      exact absurd entered before
    · rw [hc] at entered ⊢
      exact Controls.channelIndex_after before hm entered
  refine ⟨manual, rfl, ?_, rfl, silent, Controls.editableChannels_pos sound entered, ?_, .refl _ _⟩
  · show _ = { (d.step i).1.controls with channelIndex := 0 }
    rw [← index]
  · intro c h1 h2
    exact congrArg UInt8.toNat (settled c h1 h2)

/-- From the way into manual editing on, and until it is left, a desk is an editor of levels.  Its
lights show the live scene as the editor has changed it, its channel is the editor's, which is as
many steps ahead as there were more presses to the right than to the left, and no channel outside
the working set is touched. -/
theorem manual_edits_table {d : Desk σ} (reachable : d.Reachable)
    (reliable : Sink.Reliable d.stage.sink) {i : Input} (before : d.controls.mode ≠ .manual)
    (entered : (d.step i).1.controls.mode = .manual) {inputs : List Input}
    (stays : ∀ j ∈ inputs, j.pressed? ≠ some .b1 ∧ j.pressed? ≠ some .b2) :
    let first := (d.step i).1
    let last := first.run inputs
    let n := first.channelCount
    let e := (Editor.opened first.scenes.ring.live).takeAll first.workingFixtures n inputs
    0 < n ∧ (∀ f ∈ first.workingFixtures, f.count = n) ∧
    last.controls = { first.controls with channelIndex := e.cursor } ∧
    last.scenes = first.scenes ∧
    (∀ c, 1 ≤ c → c ≤ universeSize → (last.stage.frame.level c).toNat = e.levels c) ∧
    (last.controls.channelIndex : Int) =
      (Editor.presses .right inputs - Editor.presses .left inputs) % n ∧
    ∀ c, (∀ f ∈ first.workingFixtures, ¬ f.Owns c) →
      last.stage.frame.level c = first.stage.frame.level c := by
  intro first last n e
  obtain ⟨manual, opened⟩ := tracks_entered reachable reliable before entered
  have tracks : first.Tracks e last := tracks_run manual opened stays
  obtain ⟨-, cursor⟩ := Editor.cursor_takeAll first.workingFixtures opened.cursor_lt inputs
  refine ⟨opened.cursor_lt, Controls.count_eq_editableChannels manual.sound entered,
    tracks.controls_eq, tracks.scenes_eq, tracks.level_eq, ?_, fun c hc => ?_⟩
  · rw [tracks.controls_eq]
    refine cursor.trans ?_
    rw [show ((Editor.opened first.scenes.ring.live).cursor : Int) = 0 from rfl, Int.zero_add]
  · refine tracks.within.level_eq (tracks.within.reliable manual.reliable).1 c ?_
    rintro ⟨f, hf, ho⟩
    exact hc f hf ho

/-- Goes one channel back and down from there, after a press up and some that mean nothing. -/
def adjustBlue : List Input :=
  [.press .up, .wait 5000000, .press .konami, .press .left, .press .up, .press .up, .press .down]

theorem manual_edits_table_twoLamps :
    let first := ((twoLamps.run pulseBoth).step (.press .b1)).1
    let last := first.run adjustBlue
    first.controls.mode = .manual ∧ first.channelCount = 4 ∧
      ((last.controls.channelIndex : Int) = (0 - 1) % 4) ∧
      (last.stage.frame.level 1).toNat = 5 ∧ (last.stage.frame.level 8).toNat = 5 := by
  intro first last
  have reachable : (twoLamps.run pulseBoth).Reachable := ⟨_, _, _, _, _, _, pulseBoth, rfl⟩
  have before : (twoLamps.run pulseBoth).controls.mode ≠ .manual := by decide +kernel
  have entered : first.controls.mode = .manual := by decide +kernel
  have stays : ∀ j ∈ adjustBlue, j.pressed? ≠ some .b1 ∧ j.pressed? ≠ some .b2 := by decide
  obtain ⟨-, -, -, -, levels, index, -⟩ :=
    manual_edits_table reachable (reliable_frame _) before entered stays
  exact ⟨entered, by decide +kernel, index,
    (levels 1 (by decide) (by decide)).trans (by decide +kernel),
    (levels 8 (by decide) (by decide)).trans (by decide +kernel)⟩

end Desk

end LightingDesk
