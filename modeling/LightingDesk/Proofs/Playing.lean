import LightingDesk.Proofs.Choices
import LightingDesk.Proofs.Lights
import LightingDesk.Proofs.Piece

/-!
# What is playing

Each mode calls for one piece or for none: the highlight while lights are being picked, the staged
preview, the chase of the saved scenes.  As long as every effect stops that is told to, the piece
that plays is the one the choices call for.

    a move starts what the new choices call for              (tuned_fulfil)
    what plays is what is called for, after every run        (tuned_run)
    a mode without a piece of its own is always silent       (hushed_of_reachable)
-/

namespace LightingDesk

/-- The modes in which nothing plays. -/
def silentModes : List Mode := [.idle, .wheel, .manual, .preset, .party, .scary]

/-- The moves that start an effect or go on with it. -/
def Move.plays : Move → Bool
  | enterLights | backToLights | keepEdit | cursor _ | toggle | clearSelection | commitSelection
  | restage _ | dropEdit | startChase | slower | faster => true
  | _ => false

namespace Controls

/-- What has to be playing. -/
def CallsFor (c : Controls) (rig : List Fixture) (saved : List Frame) (piece : Option Piece) :
    Prop :=
  match c.mode with
  | .lights => ∃ lights, piece = some (.highlight lights) ∧ c.Aims rig lights
  | .staging =>
    match c.staged with
    | .rawDmx =>
      ∃ lights, piece = some (.pulse lights) ∧ lights.map Prod.fst = c.workingFixtures rig
    | .rainbow => piece = some (.cycle .rainbow (c.workingFixtures rig))
    | .preset => piece = some (.cycle .presets (c.workingFixtures rig))
  | .chase => piece = some (.chase saved c.chaseDelay)
  | .idle | .wheel | .manual | .preset | .party | .scary => piece = none

theorem callsFor_lights {c : Controls} {rig : List Fixture} {saved : List Frame}
    {piece : Option Piece} (h : c.mode = .lights) : c.CallsFor rig saved piece ↔
      ∃ lights, piece = some (.highlight lights) ∧ c.Aims rig lights := by
  simp only [CallsFor, h]

/-- In most modes nothing may play. -/
theorem callsFor_silence {c : Controls} {rig : List Fixture} {saved : List Frame}
    {piece : Option Piece} (h : c.mode ∈ silentModes) :
    c.CallsFor rig saved piece ↔ piece = none := by
  unfold CallsFor
  generalize c.mode = mode at h
  cases mode <;> first | exact Iff.rfl | simp [silentModes] at h

theorem mode_retime (c : Controls) (delay : Nat) :
    ({ c with chaseDelay := delay } : Controls).mode = c.mode := rfl

theorem turnChannel_eq (c : Controls) (rig : List Fixture) (turn : Turn) :
    ∃ index, c.turnChannel rig turn = { c with channelIndex := index } := by
  unfold turnChannel
  dsimp only
  split
  · exact ⟨c.channelIndex, rfl⟩
  · exact ⟨_, rfl⟩

/-- A move leads to a mode in which nothing plays if it does not play itself. -/
theorem silent_after {c : Controls} {rig : List Fixture} {m : Move} (hm : c.mode ∈ m.modes) :
    (c.after rig m).mode ∈ silentModes ↔ m.plays = false := by
  cases m with
  | channel turn =>
    obtain ⟨index, hindex⟩ := c.turnChannel_eq rig turn
    rw [after, hindex]
    simp_all [Move.modes, Move.plays, silentModes]
  | slower | faster =>
    rw [after, mode_retime]
    simp_all [Move.modes, Move.plays, silentModes]
  | commitStaged =>
    unfold after commitStaged
    simp only [Move.plays, iff_true]
    split <;> simp [silentModes]
  | enterShow chosen => cases chosen <;> simp [after, Move.plays, MotionShow.mode, silentModes]
  | _ => simp_all [after, Move.modes, Move.plays, silentModes, deselect, commitSelection]

theorem silent_before {c : Controls} {m : Move} (hm : c.mode ∈ m.modes) (h : m.plays = false) :
    m.stopsEffect = true ∨ c.mode ∈ silentModes := by
  cases m with
  | leaveLights | stopChase | commitStaged => exact .inl rfl
  | leaveShow =>
    simp only [Move.modes, List.mem_cons, List.not_mem_nil, or_false] at hm
    rcases hm with hm | hm <;> simp [silentModes, hm]
  | _ => simp_all [Move.modes, Move.plays, silentModes]

end Controls

namespace Desk

variable {σ : Type} [Sink σ]

/-! ## The desk's piece -/

/-- The desk with other choices. -/
def choose (d : Desk σ) (c : Controls) : Desk σ := { d with controls := c }

/-- The piece that is playing. -/
def piece? (d : Desk σ) : Option Piece := d.playing.map (·.effect.piece)

/-- Whether what is playing is what the choices call for. -/
def Tuned (d : Desk σ) : Prop := d.controls.CallsFor d.rig d.scenes.ring.saved d.piece?

theorem piece?_stopEffect (d : Desk σ) : d.stopEffect.1.piece? = none := by
  rw [piece?, playing_stopEffect]
  rfl

omit [Sink σ] in
theorem piece?_choose (d : Desk σ) (c : Controls) : (d.choose c).piece? = d.piece? := rfl

omit [Sink σ] in
theorem playing_of_piece? {d : Desk σ} {piece : Piece} (h : d.piece? = some piece) :
    ∃ p, d.playing = some p ∧ p.effect.piece = piece := Option.map_eq_some_iff.1 h

/-- An effect that plays the lights of a highlight is a highlight of them. -/
theorem editHighlight_eq {d : Desk σ} {lights : List Lit}
    (h : d.piece? = some (.highlight lights)) (edit : Highlight × Stage σ → Highlight × Stage σ) :
    ∃ p hl, hl.lights = lights ∧
      d.editHighlight edit =
        d.retune p (.highlight (edit (hl, d.stage)).1) (edit (hl, d.stage)).2 := by
  obtain ⟨p, hp, he⟩ := playing_of_piece? h
  cases heff : p.effect with
  | highlight hl =>
    refine ⟨p, hl, ?_, ?_⟩
    · rw [heff] at he
      exact Piece.highlight.inj he
    · simp only [editHighlight, hp, heff]
  | _ =>
    rw [heff] at he
    cases he

theorem pointAt_eq {d : Desk σ} {lights : List Lit} (h : d.piece? = some (.highlight lights))
    {i : Nat} {f : Fixture} (hf : d.rig[i]? = some f) :
    ∃ p hl, hl.lights = lights ∧
      d.pointAt i =
        d.retune p
          (.highlight ((leave d.controls (hl, d.stage)).1.askResync.add i f
            (leave d.controls (hl, d.stage)).2.frame))
          (leave d.controls (hl, d.stage)).2 := by
  simp only [pointAt, hf]
  exact editHighlight_eq h _

theorem passDelay_eq {d : Desk σ} {scenes : List Frame} {delay : Nat}
    (h : d.piece? = some (.chase scenes delay)) :
    ∃ p, ∃ c : Chase, c.scenes = scenes ∧
      d.passDelay = d.retune p (.chase (c.setDelay d.controls.chaseDelay)) d.stage := by
  obtain ⟨p, hp, he⟩ := playing_of_piece? h
  cases heff : p.effect with
  | chase c =>
    refine ⟨p, c, ?_, ?_⟩
    · rw [heff] at he
      exact (Piece.chase.inj he).1
    · simp only [passDelay, hp, heff]
  | _ =>
    rw [heff] at he
    cases he

theorem piece?_begin (d : Desk σ) (effect : Effect) :
    (d.begin effect).piece? = some effect.piece :=
  congrArg some (Playback.piece_start effect d.now d.stage)

theorem piece?_retune (d : Desk σ) (p : Playback) (effect : Effect) (stage : Stage σ) :
    (d.retune p effect stage).piece? = some effect.piece :=
  congrArg some (Playback.piece_recheck { p with effect } d.now stage)

theorem piece?_wait (d : Desk σ) (span : Nat) : (d.wait span).piece? = d.piece? := by
  unfold wait piece?
  dsimp only
  split
  · rename_i p hp
    rw [hp]
    exact congrArg some (Playback.piece_wait p _ d.stage)
  · rfl

/-- Only pointing elsewhere changes what is playing before the choices change. -/
theorem piece?_prepare (d : Desk σ) {m : Move} (hc : ∀ turn, m ≠ .cursor turn)
    (hs : m ≠ .clearSelection) : (d.prepare m).piece? = d.piece? := by
  cases m
  case cursor turn => exact absurd rfl (hc turn)
  case clearSelection => exact absurd rfl hs
  case commitStaged =>
    unfold prepare
    dsimp only
    split <;> rfl
  all_goals rfl

/-! ## What is called for -/

theorem fulfil_eq (d : Desk σ) (m : Move) :
    d.fulfil m = ((d.prepare m).choose (d.controls.after d.rig m)).conclude m := by
  have h := book_prepare d m
  have hr : (d.prepare m).rig = d.rig := congrArg Book.rig h
  have hc : (d.prepare m).controls = d.controls := congrArg Book.controls h
  show ((d.prepare m).choose ((d.prepare m).controls.after (d.prepare m).rig m)).conclude m = _
  rw [hr, hc]

theorem tuned_play_iff (d : Desk σ) (jobs : List Job) : (d.play jobs).Tuned ↔ d.Tuned := Iff.rfl

theorem tuned_begin_iff (d : Desk σ) (effect : Effect) : (d.begin effect).Tuned ↔
    d.controls.CallsFor d.rig d.scenes.ring.saved (some effect.piece) := by
  rw [← piece?_begin d effect]
  rfl

theorem tuned_retune_iff (d : Desk σ) (p : Playback) (effect : Effect) (stage : Stage σ) :
    (d.retune p effect stage).Tuned ↔
      d.controls.CallsFor d.rig d.scenes.ring.saved (some effect.piece) := by
  rw [← piece?_retune d p effect stage]
  rfl

theorem tuned_retune_choose_iff (d : Desk σ) (p : Playback) (effect : Effect) (stage : Stage σ)
    (c : Controls) : ((d.retune p effect stage).choose c).Tuned ↔
      c.CallsFor d.rig d.scenes.ring.saved (some effect.piece) := by
  rw [← piece?_retune d p effect stage]
  rfl

/-- The cursor's fixture alone is highlighted where nothing is selected. -/
theorem tuned_startHighlight {d : Desk σ} (hm : d.controls.mode = .lights)
    (hs : ∀ i, d.controls.isSelected i = false) (hc : d.controls.cursor < d.rig.length) :
    d.startHighlight.Tuned := by
  have hf : d.rig[d.controls.cursor]? = some d.rig[d.controls.cursor] :=
    List.getElem?_eq_getElem hc
  simp only [startHighlight, hf]
  rw [tuned_begin_iff, Controls.callsFor_lights hm]
  exact ⟨_, rfl, Controls.aims_one hs hf _⟩

theorem tuned_startPreview {d : Desk σ} (hm : d.controls.mode = .staging) :
    d.startPreview.Tuned := by
  unfold startPreview
  split
  all_goals
    rename_i hs
    rw [tuned_begin_iff]
    simp only [Controls.CallsFor, hm, hs]
  · exact ⟨_, rfl, by simp [RawPulse.start, workingFixtures, Function.comp_def]⟩
  · rfl
  · rfl

theorem tuned_startChase {d : Desk σ} (hm : d.controls.mode = .chase)
    (hn : 2 ≤ d.scenes.ring.saved.length) : d.startChase.Tuned := by
  simp only [startChase, Chase.start?, dif_pos hn]
  rw [tuned_begin_iff]
  simp only [Controls.CallsFor, hm]
  rfl

theorem tuned_pointAt {d : Desk σ} (h : d.Tuned) (hm : d.controls.mode = .lights) {i : Nat}
    (hi : i < d.rig.length) : ((d.pointAt i).choose { d.controls with cursor := i }).Tuned := by
  have hf : d.rig[i]? = some d.rig[i] := List.getElem?_eq_getElem hi
  obtain ⟨lights, hp, ha⟩ := (Controls.callsFor_lights hm).1 h
  obtain ⟨p, hl, rfl, he⟩ := pointAt_eq hp hf
  rw [he, tuned_retune_choose_iff]
  refine (Controls.callsFor_lights (c := { d.controls with cursor := i }) hm).2 ⟨_, rfl, ?_⟩
  exact aims_point (h := (hl, d.stage)) ha hf _

theorem tuned_pointOnly {d : Desk σ} (h : d.Tuned) (hm : d.controls.mode = .lights) :
    (d.pointOnly.choose d.controls.deselect).Tuned := by
  obtain ⟨lights, hp, ha⟩ := (Controls.callsFor_lights hm).1 h
  obtain ⟨p, hl, rfl, he⟩ := editHighlight_eq hp fun h =>
    (h.1.indices.filter (· ≠ d.controls.cursor)).foldl (fun h i => dropLight i h) h
  rw [pointOnly, he, tuned_retune_choose_iff]
  refine (Controls.callsFor_lights (c := d.controls.deselect) hm).2 ⟨_, rfl, ?_⟩
  exact aims_only (h := (hl, d.stage)) ha

theorem tuned_passDelay {d : Desk σ} (hm : d.controls.mode = .chase) {delay : Nat}
    (hp : d.piece? = some (.chase d.scenes.ring.saved delay)) : d.passDelay.Tuned := by
  obtain ⟨p, c, hs, he⟩ := passDelay_eq hp
  rw [he, tuned_retune_iff]
  simp only [Controls.CallsFor, hm]
  rw [← hs]
  rfl

/-! ## Moves -/

theorem piece?_fulfil (d : Desk σ) {m : Move} (h : m.plays = false) :
    (d.fulfil m).piece? = d.piece? := by
  have hp : (d.prepare m).piece? = d.piece? := by
    refine piece?_prepare d ?_ ?_
    · rintro turn rfl
      cases h
    · rintro rfl
      cases h
  rw [fulfil_eq, ← hp]
  cases m <;> first | rfl | cases h

/-- What has been picked before is not selected any more once lights can be picked again. -/
theorem tuned_pickAgain {d d' : Desk σ} (c : Controls) (hd : d'.rig = d.rig)
    (sound : d.controls.Sound d.rig) (hl : d.controls.mode ≠ .lights) (hm : c.mode = .lights)
    (hs : c.selected = d.controls.selected) (hc : c.cursor < d.rig.length) :
    (d'.choose c).startHighlight.Tuned := by
  refine tuned_startHighlight hm ?_ ?_
  · intro i
    refine Controls.isSelected_of_unselected ?_ i
    show ∀ flag ∈ c.selected, flag = false
    rw [hs]
    exact sound.unselected hl
  · show c.cursor < d'.rig.length
    rw [hd]
    exact hc

/-- A chase is given the delay that has been chosen. -/
theorem tuned_retime {d : Desk σ} {m : Move} (h : d.Tuned) (hm : d.controls.mode = .chase)
    (hc : (d.controls.after d.rig m).mode = .chase) (hp : d.prepare m = d)
    (hq : ∀ d' : Desk σ, d'.conclude m = d'.passDelay) :
    (((d.prepare m).choose (d.controls.after d.rig m)).conclude m).Tuned := by
  have hpiece : d.piece? = some (.chase d.scenes.ring.saved d.controls.chaseDelay) := by
    unfold Tuned Controls.CallsFor at h
    simpa only [hm] using h
  rw [hp, hq]
  exact tuned_passDelay hc ((piece?_choose d _).trans hpiece)

/-- A move starts what its choices call for. -/
theorem tuned_fulfil {d : Desk σ} {m : Move} (hm : d.controls.mode ∈ m.modes)
    (sound : d.controls.Sound d.rig) (allowed : d.allows m = true)
    (stopped : m.stopsEffect = true → d.piece? = none)
    (tuned : m.stopsEffect = false → d.Tuned) : (d.fulfil m).Tuned := by
  by_cases hplays : m.plays = true
  · rw [fulfil_eq]
    cases m with
    | enterLights =>
      have hi : d.controls.mode = .idle := by simpa [Move.modes] using hm
      have hr : d.rig ≠ [] := by simpa [allows] using allowed
      have hc := (Controls.sound_after (m := .enterLights) sound hm fun _ => hr).cursor_lt hr
      have hl : d.controls.mode ≠ .lights := by simp [hi]
      exact tuned_pickAgain (d.controls.after d.rig .enterLights) rfl sound hl rfl rfl hc
    | backToLights =>
      have hi : d.controls.mode = .staging := by simpa [Move.modes] using hm
      have hr := Controls.rig_ne_of_committed sound (by rw [hi]; rfl)
      have hl : d.controls.mode ≠ .lights := by simp [hi]
      exact tuned_pickAgain (d.controls.after d.rig .backToLights) rfl sound hl rfl rfl
        (sound.cursor_lt hr)
    | keepEdit =>
      have hc := Controls.committed_of_edit hm
      have hr := Controls.rig_ne_of_committed sound hc
      have hl : d.controls.mode ≠ .lights := fun hl => by simp [hl, Mode.isCommitted] at hc
      exact tuned_pickAgain (d.controls.after d.rig .keepEdit) rfl sound hl rfl rfl
        (sound.cursor_lt hr)
    | commitSelection => exact tuned_startPreview rfl
    | restage =>
      have hs : d.controls.mode = .staging := by simpa [Move.modes] using hm
      exact tuned_startPreview hs
    | dropEdit => exact tuned_startPreview rfl
    | startChase =>
      have hn : 2 ≤ d.scenes.ring.count := by simpa [allows] using allowed
      exact tuned_startChase rfl hn
    | cursor turn =>
      have hl : d.controls.mode = .lights := by simpa [Move.modes] using hm
      have hr : 0 < d.rig.length := List.length_pos_iff.2 (sound.rig_ne hl)
      exact tuned_pointAt (tuned rfl) hl (Turn.around_lt hr _ turn)
    | clearSelection => exact tuned_pointOnly (tuned rfl) (by simpa [Move.modes] using hm)
    | toggle =>
      have hl : d.controls.mode = .lights := by simpa [Move.modes] using hm
      obtain ⟨lights, hp, ha⟩ := (Controls.callsFor_lights hl).1 (tuned rfl)
      refine (Controls.callsFor_lights (c := d.controls.after d.rig .toggle) hl).2 ⟨lights, hp, ?_⟩
      exact Controls.aims_toggle ha
    | slower =>
      have hc : d.controls.mode = .chase := by simpa [Move.modes] using hm
      exact tuned_retime (tuned rfl) hc ((Controls.mode_retime _ _).trans hc) rfl fun _ => rfl
    | faster =>
      have hc : d.controls.mode = .chase := by simpa [Move.modes] using hm
      exact tuned_retime (tuned rfl) hc ((Controls.mode_retime _ _).trans hc) rfl fun _ => rfl
    | _ => cases hplays
  · rw [Bool.not_eq_true] at hplays
    refine (Controls.callsFor_silence ?_).2 ?_
    · rw [controls_fulfil]
      exact (Controls.silent_after hm).2 hplays
    · rw [piece?_fulfil d hplays]
      by_cases hs : m.stopsEffect = true
      · exact stopped hs
      · refine (Controls.callsFor_silence ?_).1 (tuned (by simpa using hs))
        exact (Controls.silent_before hm hplays).resolve_left hs

/-! ## Runs -/

omit [Sink σ] in
theorem tuned_start (rig : List Fixture) (sink : σ) (scenes : SceneStore)
    (delay stopLimit : Nat) (dice : Nat → Color) :
    (start rig sink scenes delay stopLimit dice).Tuned := by
  show Controls.CallsFor _ _ _ none
  exact (Controls.callsFor_silence (.head _)).2 rfl

theorem tuned_step (d : Desk σ) (i : Input) (ok : (d.step i).2 = .ok ())
    (sound : d.controls.Sound d.rig) (h : d.Tuned) : (d.step i).1.Tuned := by
  have hd := dealt_step d i
  generalize d.step i = out at hd ok
  cases hd with
  | ignored => exact h
  | stuck e => cases ok
  | painted => exact (tuned_play_iff _ _).2 h
  | followed => exact h
  | waited span =>
    unfold Tuned
    rw [piece?_wait, controls_wait, rig_wait, scenes_wait]
    exact h
  | moved a m pressed asked allowed stopped =>
    have hc := controls_clearedFor d m
    have hr := rig_clearedFor d m
    refine tuned_fulfil ?_ ?_ ?_ ?_ ?_
    · rw [hc]
      exact Move.mode_mem_modes asked
    · rw [hc, hr]
      exact sound
    · rw [allows_clearedFor]
      exact allowed
    · intro hs
      rw [clearedFor, if_pos hs, piece?_stopEffect]
    · intro hs
      rw [clearedFor, if_neg (by simp [hs])]
      exact h

/-- As long as every effect stops that is told to, what plays is what the choices call for. -/
theorem tuned_run {d : Desk σ} (h : d.Tuned) (sound : d.controls.Sound d.rig)
    {inputs : List Input} (smooth : d.Smooth inputs) : (d.run inputs).Tuned := by
  have both : d.Tuned ∧ d.controls.Sound d.rig := ⟨h, sound⟩
  refine (smooth_run_keeps (P := fun d : Desk σ => d.Tuned ∧ d.controls.Sound d.rig) ?_ both
    smooth).1
  intro d' i ok ⟨h', sound'⟩
  exact ⟨tuned_step d' i ok sound' h', sound_step d' i sound'⟩

/-- Whether nothing plays in a mode in which nothing has to. -/
def Hushed (d : Desk σ) : Prop := d.controls.mode ∈ silentModes → d.piece? = none

theorem hushed_step (d : Desk σ) (i : Input) (h : d.Hushed) : (d.step i).1.Hushed := by
  have hd := dealt_step d i
  generalize d.step i = out at hd
  cases hd with
  | ignored | painted | followed => exact h
  | stuck => exact fun _ => piece?_stopEffect d
  | waited span =>
    unfold Hushed
    rw [piece?_wait, controls_wait]
    exact h
  | moved a m pressed asked =>
    intro hm
    rw [controls_fulfil, controls_clearedFor] at hm
    have hmodes := Move.mode_mem_modes asked
    have hplays := (Controls.silent_after hmodes).1 hm
    rw [piece?_fulfil _ hplays]
    by_cases hs : m.stopsEffect = true
    · rw [clearedFor, if_pos hs, piece?_stopEffect]
    · rw [clearedFor, if_neg hs]
      exact h ((Controls.silent_before hmodes hplays).resolve_left hs)

/-- No effect goes on playing where it has no place, not even one that has failed to stop. -/
theorem hushed_of_reachable {d : Desk σ} (h : d.Reachable) : d.Hushed := by
  obtain ⟨rig, sink, scenes, delay, stopLimit, dice, inputs, rfl⟩ := h
  have first : (start rig sink scenes delay stopLimit dice).Hushed := fun _ => rfl
  exact run_keeps (P := Hushed) hushed_step first inputs

end Desk

end LightingDesk
