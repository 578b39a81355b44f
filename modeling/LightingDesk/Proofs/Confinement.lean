import LightingDesk.Proofs.Steady

/-!
# Confinement

In each mode but idling and chasing, the lights show the live scene except on the channels that the
mode is there to change: those of the highlighted lights, of the preview, of what is being edited,
or of the show.  Nothing of an earlier highlight, preview or edit is left anywhere else.

    what plays changes only what the mode leaves free          (free_of_reach)
    a quiet step keeps the desk confined                       (confined_step)
    a desk on a reliable sink is confined after every run      (frame_confined)
-/

namespace LightingDesk.Desk

variable {σ : Type} [Sink σ]

/-- The lights that are highlighted. -/
def lights (d : Desk σ) : List Lit :=
  match d.piece? with
  | some (.highlight lights) => lights
  | _ => []

/-- Whether the mode leaves channel `c` free to differ from the live scene. -/
def Free (d : Desk σ) (c : Nat) : Prop :=
  match d.controls.mode with
  | .idle | .chase => True
  | .lights =>
    ∃ lit ∈ d.lights, ∃ f, d.rig[lit.index]? = some f ∧ (f.HasAt "dimmer" c ∨ f.DefaultColorAt c)
  | .staging =>
    if d.controls.staged = .rawDmx then ∃ f ∈ d.workingFixtures, f.HasAt "dimmer" c ∨ f.WhiteAt c
    else ∃ f ∈ d.workingFixtures, f.GlowsAt c
  | .wheel | .preset => ∃ f ∈ d.workingFixtures, f.GlowsAt c
  | .manual => ∃ f ∈ d.workingFixtures, f.Owns c
  | .party | .scary => ∃ f ∈ d.rig, f.GlowsAt c

/-- Whether the lights show the live scene wherever the mode does not leave them free, and dropping
a light would show it again. -/
structure Confined (d : Desk σ) : Prop where
  agree : d.stage.frame.AgreeOff d.Free d.scenes.ring.live
  saved_eq : d.controls.mode = .lights →
    ∀ lit ∈ d.lights, lit.saved = lit.fixture.values d.scenes.ring.live

/-! ## What is free -/

omit [Sink σ] in
theorem lights_eq {d : Desk σ} {lights : List Lit} (h : d.piece? = some (.highlight lights)) :
    d.lights = lights := by
  rw [Desk.lights, h]

omit [Sink σ] in
/-- What is free depends on the lights, the rig and some of the choices. -/
theorem free_congr {d d' : Desk σ} (hl : d'.lights = d.lights) (hr : d'.rig = d.rig)
    (hm : d'.controls.mode = d.controls.mode) (hs : d'.controls.staged = d.controls.staged)
    (hw : d'.controls.workingSet = d.controls.workingSet) : d'.Free = d.Free := by
  funext c
  unfold Free workingFixtures Controls.workingFixtures
  rw [hl, hr, hm, hs, hw]

omit [Sink σ] in
theorem free_of_mode {d : Desk σ} (h : d.controls.mode ∈ [Mode.idle, .chase]) (c : Nat) :
    d.Free c := by
  unfold Free
  generalize d.controls.mode = mode at h
  cases mode <;> trivial

omit [Sink σ] in
/-- What is called for changes only what the mode leaves free. -/
theorem free_of_reach {d : Desk σ} (tuned : d.Tuned) {piece : Piece} (hp : d.piece? = some piece)
    {c : Nat} (hc : piece.Reach c) : d.Free c := by
  have h := tuned
  unfold Tuned Controls.CallsFor at h
  rw [hp] at h
  unfold Free
  cases hm : d.controls.mode with
  | idle | chase => trivial
  | wheel | manual | preset | party | scary => simp [hm] at h
  | lights =>
    simp only [hm] at h ⊢
    obtain ⟨lights, he, ha⟩ := h
    cases he
    obtain ⟨lit, hl, hc⟩ := hc
    refine ⟨lit, ?_, lit.fixture, ha.placed.fixture_eq lit hl, hc⟩
    rw [lights_eq hp]
    exact hl
  | staging =>
    simp only [hm] at h ⊢
    cases hs : d.controls.staged with
    | rawDmx =>
      simp only [hs] at h
      obtain ⟨lights, he, hw⟩ := h
      cases he
      obtain ⟨light, hl, hc⟩ := hc
      refine ⟨light.1, ?_, hc⟩
      rw [workingFixtures, ← hw]
      exact List.mem_map_of_mem hl
    | rainbow | preset =>
      simp only [hs] at h
      cases h
      obtain ⟨f, hf, hc⟩ := hc
      exact ⟨f, hf, hc⟩

/-! ## Confined desks -/

omit [Sink σ] in
theorem not_lights {d : Desk σ} {modes : List Mode} (h : d.controls.mode ∈ modes)
    (hn : Mode.lights ∉ modes) : d.controls.mode ≠ .lights := fun hm => hn (hm ▸ h)

/-- Idling and chasing leave everything free. -/
theorem confined_of_mode {d : Desk σ} (h : d.controls.mode ∈ [Mode.idle, .chase]) :
    d.Confined :=
  ⟨fun c _ _ hc => absurd (free_of_mode h c) hc, fun hm => absurd hm (not_lights h (by decide))⟩

theorem confined_of_settled {d : Desk σ} (h : d.Settled) (hm : d.controls.mode ≠ .lights) :
    d.Confined :=
  ⟨h.off _, fun hl => absurd hl hm⟩

/-- What goes on within the free channels keeps a desk confined. -/
theorem confined_within {d d' : Desk σ} (h : d.Confined) (hf : d'.Free = d.Free)
    (hl : d'.lights = d.lights) (hs : d'.scenes = d.scenes)
    (hm : d'.controls.mode = .lights → d.controls.mode = .lights) {P : Nat → Prop}
    (within : d.stage.Within P d'.stage) (hP : ∀ c, P c → d.Free c)
    (quiet : d'.stage.reported = d.stage.reported) : d'.Confined := by
  constructor
  · rw [hf, hs]
    exact (within.mono hP).agreeOff quiet h.agree
  · intro hm'
    rw [hl, hs]
    exact h.saved_eq (hm hm')

variable [LawfulSink σ]

/-- An effect that is called for keeps what it touches free. -/
theorem confined_begin {d : Desk σ} {effect : Effect} (h : d.Settled)
    (tuned : (d.begin effect).Tuned) (quiet : (d.begin effect).stage.reported = d.stage.reported)
    (hs : ∀ light ∈ effect.piece.saved, light.2 = light.1.values d.scenes.ring.live) :
    (d.begin effect).Confined := by
  have hp := piece?_begin d effect
  have hr : ∀ c, effect.piece.Reach c → (d.begin effect).Free c :=
    fun c hc => free_of_reach tuned hp hc
  constructor
  · exact ((within_begin d effect).mono hr).agreeOff quiet (h.off _)
  · intro hm lit hl
    obtain ⟨lights, he, -⟩ := (Controls.callsFor_lights hm).1 tuned
    rw [lights_eq he] at hl
    have he' : effect.piece = .highlight lights := Option.some.inj (hp.symm.trans he)
    exact hs (lit.fixture, lit.saved) (by
      rw [he']
      exact List.mem_map.2 ⟨lit, hl, rfl⟩)

theorem confined_startHighlight {d : Desk σ} (h : d.Settled) (tuned : d.startHighlight.Tuned)
    (quiet : d.startHighlight.stage.reported = d.stage.reported) : d.startHighlight.Confined := by
  unfold startHighlight at tuned quiet ⊢
  dsimp only at tuned quiet ⊢
  cases hf : d.rig[d.controls.cursor]? with
  | some f =>
    rw [hf] at tuned quiet
    refine confined_begin h tuned quiet ?_
    intro light hl
    rw [List.mem_singleton.1 hl]
    exact Fixture.values_agreeOff (h.off fun _ => False) fun _ _ => id
  | none =>
    rw [hf] at tuned quiet
    exact confined_begin h tuned quiet nofun

theorem confined_startPreview {d : Desk σ} (h : d.Settled) (tuned : d.startPreview.Tuned)
    (quiet : d.startPreview.stage.reported = d.stage.reported) : d.startPreview.Confined := by
  unfold startPreview at tuned quiet ⊢
  cases hs : d.controls.staged with
  | rawDmx =>
    rw [hs] at tuned quiet
    refine confined_begin h tuned quiet ?_
    intro light hl
    obtain ⟨f, -, rfl⟩ := List.mem_map.1 hl
    exact Fixture.values_agreeOff (h.off fun _ => False) fun _ _ => id
  | rainbow | preset =>
    rw [hs] at tuned quiet
    exact confined_begin h tuned quiet nofun

/-- A highlight that has been edited and is still steady keeps the desk confined. -/
theorem confined_edited {d d' : Desk σ} {p : Playback} (edited : Highlight × Stage σ)
    {effect : Effect} (heff : effect = .highlight edited.1)
    (he : d' = d.retune p effect edited.2) {c : Controls}
    (hr : d.stage.reported ≤ edited.2.reported)
    (steady : edited.2.reported = d.stage.reported → Steady d.scenes.ring.live edited)
    (tuned : (d'.choose c).Tuned) (quiet : d'.stage.reported = d.stage.reported) :
    (d'.choose c).Confined := by
  have hpiece : effect.piece = .highlight edited.1.lights := by rw [heff, Effect.piece]
  subst he
  have hp : ((d.retune p effect edited.2).choose c).piece? = some effect.piece :=
    piece?_retune d p effect edited.2
  have within := within_retune d p effect edited.2
  have hle := within.reported_le
  have hs := steady (by omega)
  constructor
  · have ha : edited.2.frame.AgreeOff effect.piece.Reach d.scenes.ring.live := by
      rw [hpiece]
      exact hs.agree
    exact (within.agreeOff (by omega) ha).mono fun c hc => free_of_reach tuned hp hc
  · intro _ lit hl
    rw [lights_eq (hp.trans (congrArg some hpiece))] at hl
    exact hs.saved_eq lit hl

/-! ## Steps -/

omit [LawfulSink σ] in
theorem steady_of_confined {d : Desk σ} (h : d.Confined) (hm : d.controls.mode = .lights)
    {hl : Highlight} (hp : d.piece? = some (.highlight hl.lights))
    (placed : Placed d.rig hl.lights) : Steady d.scenes.ring.live (hl, d.stage) := by
  refine ⟨?_, fun c h1 h2 hc => h.agree c h1 h2 fun hfree => hc ?_⟩
  · intro lit hlit
    exact h.saved_eq hm lit (by rwa [lights_eq hp])
  · unfold Free at hfree
    simp only [hm] at hfree
    obtain ⟨lit, hlit, f, hlf, hcf⟩ := hfree
    rw [lights_eq hp] at hlit
    rw [placed.fixture_eq lit hlit] at hlf
    cases hlf
    exact ⟨lit, hlit, hcf⟩

theorem confined_pointAt {d : Desk σ} (apart : d.rig.Pairwise Fixture.Apart) (h : d.Confined)
    (tuned : d.Tuned) (hm : d.controls.mode = .lights) {i : Nat} (hi : i < d.rig.length)
    (quiet : (d.pointAt i).stage.reported = d.stage.reported) :
    ((d.pointAt i).choose { d.controls with cursor := i }).Confined := by
  have hf : d.rig[i]? = some d.rig[i] := List.getElem?_eq_getElem hi
  obtain ⟨lights, hp, ha⟩ := (Controls.callsFor_lights hm).1 tuned
  obtain ⟨p, hl, rfl, he⟩ := pointAt_eq hp hf
  have hs := steady_of_confined h hm hp ha.placed
  refine confined_edited ((leave d.controls (hl, d.stage)).1.askResync.add i d.rig[i] _, _) rfl he
    ?_ ?_ (tuned_pointAt tuned hm hi) quiet
  · exact (within_leave d.controls (hl, d.stage)).reported_le
  · intro hq
    have hleft := steady_leave hs d.controls hq
    have hplaced := placed_sublist ha.placed (lights_leave_sublist d.controls (hl, d.stage))
    exact steady_add apart (steady_askResync hleft) hplaced hf

theorem confined_pointOnly {d : Desk σ} (h : d.Confined) (tuned : d.Tuned)
    (hm : d.controls.mode = .lights) (quiet : d.pointOnly.stage.reported = d.stage.reported) :
    (d.pointOnly.choose d.controls.deselect).Confined := by
  obtain ⟨lights, hp, ha⟩ := (Controls.callsFor_lights hm).1 tuned
  obtain ⟨p, hl, rfl, he⟩ := editHighlight_eq hp fun h =>
    (h.1.indices.filter (· ≠ d.controls.cursor)).foldl (fun h i => dropLight i h) h
  have hs := steady_of_confined h hm hp ha.placed
  refine confined_edited _ rfl he ?_ ?_ (tuned_pointOnly tuned hm) quiet
  · exact (within_drop _ (hl, d.stage)).reported_le
  · intro hq
    exact steady_drop hs _ hq

omit [LawfulSink σ] in
/-- A move that keeps what is free and stays within it keeps the desk confined. -/
theorem confined_stay {d : Desk σ} {m : Move} (h : d.Confined) (hp : (d.fulfil m).piece? = d.piece?)
    (hs : d.scenesAfter m = d.scenes) (hm : (d.controls.after d.rig m).mode = d.controls.mode)
    (hst : (d.controls.after d.rig m).staged = d.controls.staged)
    (hw : (d.controls.after d.rig m).workingSet = d.controls.workingSet) {P : Nat → Prop}
    (within : d.stage.Within P (d.fulfil m).stage) (hP : ∀ c, P c → d.Free c)
    (quiet : (d.fulfil m).stage.reported = d.stage.reported) : (d.fulfil m).Confined := by
  have hc := controls_fulfil d m
  have hl : (d.fulfil m).lights = d.lights := by rw [lights, lights, hp]
  refine confined_within h ?_ hl ((scenes_fulfil d m).trans hs) ?_ within hP quiet
  · refine free_congr hl (rig_fulfil d m) ?_ ?_ ?_
    · rw [hc, hm]
    · rw [hc, hst]
    · rw [hc, hw]
  · rw [hc, hm]
    exact id

omit [Sink σ] [LawfulSink σ] in
theorem free_commitStaged {d : Desk σ} (hm : d.controls.mode = .staging)
    (hs : d.controls.staged ≠ .rawDmx) : (d.choose d.controls.commitStaged).Free = d.Free := by
  have hw : (d.choose d.controls.commitStaged).workingFixtures = d.workingFixtures := by
    unfold workingFixtures choose Controls.commitStaged
    dsimp only
    split <;> rfl
  funext c
  have hd : d.Free c = ∃ f ∈ d.workingFixtures, f.GlowsAt c := by
    simp only [Free, hm, if_neg hs]
  rw [hd, ← hw]
  cases hst : d.controls.staged with
  | rawDmx => exact absurd hst hs
  | rainbow =>
    have hmode : (d.choose d.controls.commitStaged).controls.mode = .wheel := by
      simp [choose, Controls.commitStaged, hst]
    simp only [Free, hmode]
  | preset =>
    have hmode : (d.choose d.controls.commitStaged).controls.mode = .preset := by
      simp [choose, Controls.commitStaged, hst]
    simp only [Free, hmode]

omit [LawfulSink σ] in
/-- Editing colors begins with what the preview has left. -/
theorem confined_commitStaged {d : Desk σ} (h : d.Confined) (hm : d.controls.mode = .staging)
    (hs : d.controls.staged ≠ .rawDmx) : (d.choose d.controls.commitStaged).Confined := by
  constructor
  · rw [free_commitStaged hm hs]
    exact h.agree
  · intro hl
    have hn : d.controls.commitStaged.mode ≠ .lights := by
      unfold Controls.commitStaged
      split <;> exact nofun
    exact absurd hl hn

/-- A move keeps the desk confined, if it finds it so where that is needed. -/
theorem confined_fulfil {d : Desk σ} {m : Move} (apart : d.rig.Pairwise Fixture.Apart)
    (hm : d.controls.mode ∈ m.modes) (sound : d.controls.Sound d.rig)
    (tuned : m.stopsEffect = false → d.Tuned) (tuned' : (d.fulfil m).Tuned)
    (h : m.stopsEffect = false → d.Confined)
    (hedit : m = .commitStaged → d.controls.staged ≠ .rawDmx → d.Confined)
    (quiet : (d.fulfil m).stage.reported = d.stage.reported) : (d.fulfil m).Confined := by
  have hmode := controls_fulfil d m
  have hfulfil := fulfil_eq d m
  obtain ⟨hprep, hconclude⟩ := quiet_fulfil quiet
  cases m with
  | scene | liveScene | saveScene | deleteScene =>
    have hi : d.controls.mode = .idle := by simpa [Move.modes] using hm
    refine confined_of_mode ?_
    rw [hmode]
    exact List.mem_cons.2 (.inl hi)
  | leaveLights | stopChase | leaveShow =>
    refine confined_of_mode ?_
    rw [hmode]
    exact .head _
  | startChase =>
    refine confined_of_mode ?_
    rw [hmode]
    exact .tail _ (.head _)
  | slower | faster =>
    refine confined_of_mode ?_
    rw [hmode]
    have hc : d.controls.mode = .chase := by simpa [Move.modes] using hm
    refine List.mem_cons.2 (.inr (List.mem_singleton.2 ?_))
    exact (Controls.mode_retime d.controls _).trans hc
  | enterShow chosen =>
    refine confined_of_settled (settled_captureFrame d) ?_
    rw [hmode]
    intro hl
    cases chosen <;> cases hl
  | enterLights | keepEdit =>
    rw [hfulfil] at tuned' quiet ⊢
    exact confined_startHighlight (settled_captureFrame d) tuned' quiet
  | backToLights =>
    rw [hfulfil] at tuned' hconclude ⊢
    exact confined_startHighlight (settled_showLive hprep) tuned' hconclude
  | commitSelection | restage | dropEdit =>
    rw [hfulfil] at tuned' hconclude ⊢
    refine confined_startPreview ?_ tuned' hconclude
    exact settled_showLive (d := d) hprep
  | commitStaged =>
    by_cases hraw : d.controls.staged = .rawDmx
    · have hp : d.prepare .commitStaged = d.showLive := if_pos hraw
      rw [hp] at hprep
      refine confined_of_settled ?_ ?_
      · rw [hfulfil, hp]
        exact settled_showLive hprep
      · rw [hmode]
        simp [Controls.after, Controls.commitStaged, hraw]
    · have hp : d.prepare .commitStaged = d := if_neg hraw
      have hs : d.controls.mode = .staging := by simpa [Move.modes] using hm
      rw [hfulfil, hp]
      exact confined_commitStaged (hedit rfl hraw) hs hraw
  | cursor turn =>
    have hl : d.controls.mode = .lights := by simpa [Move.modes] using hm
    have hr : 0 < d.rig.length := List.length_pos_iff.2 (sound.rig_ne hl)
    rw [hfulfil] at quiet ⊢
    exact confined_pointAt apart (h rfl) (tuned rfl) hl (Turn.around_lt hr _ turn) quiet
  | clearSelection =>
    have hl : d.controls.mode = .lights := by simpa [Move.modes] using hm
    rw [hfulfil] at quiet ⊢
    exact confined_pointOnly (h rfl) (tuned rfl) hl quiet
  | toggle =>
    exact confined_stay (h rfl) rfl rfl rfl rfl rfl (.refl (fun _ => False) d.stage)
      (fun _ => False.elim) quiet
  | channel turn =>
    obtain ⟨index, hindex⟩ := d.controls.turnChannel_eq d.rig turn
    have hc : d.controls.after d.rig (.channel turn) = { d.controls with channelIndex := index } :=
      hindex
    refine confined_stay (h rfl) rfl rfl ?_ ?_ ?_ (.refl (fun _ => False) d.stage)
      (fun _ => False.elim) quiet <;> rw [hc]
  | raise | lower =>
    have hc : d.controls.mode = .manual := by simpa [Move.modes] using hm
    refine confined_stay (h rfl) rfl rfl rfl rfl rfl (within_adjust d _) ?_ quiet
    intro c hf
    simpa only [Free, hc] using hf
  | blackOut =>
    have hc : d.controls.mode = .manual := by simpa [Move.modes] using hm
    refine confined_stay (h rfl) rfl rfl rfl rfl rfl (within_blackOut d) ?_ quiet
    intro c hf
    simpa only [Free, hc] using hf
  | preset turn =>
    have hc : d.controls.mode = .preset := by simpa [Move.modes] using hm
    refine confined_stay (h rfl) rfl rfl rfl rfl rfl
      (within_paintPreset (d.choose (d.controls.after d.rig (.preset turn)))) ?_ quiet
    intro c hf
    simp only [Free, hc]
    exact hf

/-- The preview of a color leaves nothing to be put back when it is stopped. -/
theorem confined_stopPreview {d : Desk σ} (h : d.Confined) (tuned : d.Tuned)
    (hm : d.controls.mode = .staging) (hs : d.controls.staged ≠ .rawDmx)
    (quiet : d.stopEffect.1.stage.reported = d.stage.reported) : d.stopEffect.1.Confined := by
  have hc := controls_stopEffect d
  have hfree : d.stopEffect.1.Free = d.Free := by
    funext c
    unfold Free workingFixtures
    rw [hc, rig_stopEffect]
    simp only [hm, if_neg hs]
  have hsaved : ∀ piece ∈ d.piece?, piece.saved = [] := by
    intro piece hp
    unfold Tuned Controls.CallsFor at tuned
    rw [Option.mem_def.1 hp] at tuned
    simp only [hm] at tuned
    cases hst : d.controls.staged with
    | rawDmx => exact absurd hst hs
    | rainbow | preset =>
      simp only [hst] at tuned
      cases tuned
      rfl
  constructor
  · rw [hfree, scenes_stopEffect]
    refine ((within_stopEffect d).mono ?_).agreeOff quiet h.agree
    rintro c ⟨piece, hp, light, hl, -⟩
    rw [hsaved piece hp] at hl
    cases hl
  · intro hl
    rw [hc, hm] at hl
    cases hl

/-- A quiet step keeps a desk confined. -/
theorem confined_step {d : Desk σ} {i : Input} (apart : d.rig.Pairwise Fixture.Apart)
    (ok : (d.step i).2 = .ok ()) (quiet : (d.step i).1.stage.reported = d.stage.reported)
    (sound : d.controls.Sound d.rig) (tuned : d.Tuned) (h : d.Confined) :
    (d.step i).1.Confined := by
  have tuned' := tuned_step d i ok sound tuned
  have hd := dealt_step d i
  generalize d.step i = out at hd ok quiet tuned'
  cases hd with
  | ignored => exact h
  | stuck e => cases ok
  | painted color _ hm =>
    refine confined_within h rfl rfl rfl id (within_paint d color) ?_ quiet
    intro c hc
    simpa only [Free, hm] using hc
  | followed magnitude _ hm =>
    refine confined_within h rfl rfl rfl id (within_follow d magnitude) ?_ quiet
    intro c hc
    rcases hm with hm | hm <;> simpa only [Free, hm] using hc
  | waited span =>
    have hp := piece?_wait d span
    have hc := controls_wait d span
    have hl : (d.wait span).lights = d.lights := by rw [lights, lights, hp]
    refine confined_within h ?_ hl (scenes_wait d span) (by rw [hc]; exact id)
      (within_wait d span) ?_ quiet
    · exact free_congr hl (rig_wait d span) (by rw [hc]) (by rw [hc]) (by rw [hc])
    · rintro c ⟨piece, hp, hc⟩
      exact free_of_reach tuned hp hc
  | moved a m pressed asked allowed stopped =>
    have hc := controls_clearedFor d m
    have hr := rig_clearedFor d m
    obtain ⟨hcleared, hq⟩ := quiet_moved quiet
    have hstay : m.stopsEffect = false → d.clearedFor m = d := fun hs => by simp [clearedFor, hs]
    refine confined_fulfil ?_ ?_ ?_ ?_ tuned' ?_ ?_
      hq
    · rw [hr]
      exact apart
    · rw [hc]
      exact Move.mode_mem_modes asked
    · rw [hc, hr]
      exact sound
    · intro hs
      rw [hstay hs]
      exact tuned
    · intro hs
      rw [hstay hs]
      exact h
    · intro he hs
      subst he
      rw [hc] at hs
      have hm : d.controls.mode = .staging := by
        simpa [Move.modes] using Move.mode_mem_modes asked
      exact confined_stopPreview h tuned hm hs hcleared

/-! ## Runs -/

/-- Where no two fixtures share a channel and no write that fits ever fails, a desk on which every
effect stops that is told to shows the live scene on all channels that its mode does not leave
free. -/
theorem frame_confined {rig : List Fixture} (apart : rig.Pairwise Fixture.Apart) {sink : σ}
    (reliable : Sink.Reliable sink) (scenes : SceneStore) (delay stopLimit : Nat)
    (dice : Nat → Color) (inputs : List Input)
    (smooth : (start rig sink scenes delay stopLimit dice).Smooth inputs) :
    ((start rig sink scenes delay stopLimit dice).run inputs).stage.frame.AgreeOff
      ((start rig sink scenes delay stopLimit dice).run inputs).Free
      ((start rig sink scenes delay stopLimit dice).run inputs).scenes.ring.live := by
  have first : (start rig sink scenes delay stopLimit dice).Confined := confined_of_mode (.head _)
  have quiet := quiet_of_reliable (d := start rig sink scenes delay stopLimit dice) reliable inputs
  have all := quiet_run_keeps
    (P := fun d : Desk σ => d.rig = rig ∧ d.controls.Sound d.rig ∧ d.Tuned ∧ d.Confined)
    (fun d i ok hq ⟨hr, sound, tuned, h⟩ =>
      ⟨(rig_step d i).trans hr, sound_step d i sound, tuned_step d i ok sound tuned,
        confined_step (hr ▸ apart) ok hq sound tuned h⟩)
    ⟨rfl, Controls.sound_start rig delay, tuned_start rig sink scenes delay stopLimit dice, first⟩
    smooth quiet
  exact all.2.2.2.agree

/-- A lamp with a dimmer and three colors. -/
def lamp (address : Nat) (fits : address + 4 ≤ 513 := by decide)
    (pos : 1 ≤ address := by decide) : Fixture where
  name := "lamp"
  address
  channels := ["dimmer", "red", "green", "blue"]
  name_ne := by decide
  channels_pos := by decide
  address_pos := pos
  fits
  named := by decide
  distinct := by decide

/-- Two lamps that stand side by side, and nothing saved. -/
def twoLamps : Desk Frame := start [lamp 1, lamp 5] Frame.dark (.inMemory []) 0 0 fun _ => .white

/-- Picks the first lamp, looks at a preview, goes back and points at the second lamp. -/
def pointAtSecond : List Input :=
  [.press .b1, .wait 1000000, .press .b1, .press .b2, .press .right]

theorem frame_confined_twoLamps :
    (twoLamps.run pointAtSecond).controls.mode = .lights ∧
      (twoLamps.run pointAtSecond).stage.frame.AgreeOff (twoLamps.run pointAtSecond).Free
        (twoLamps.run pointAtSecond).scenes.ring.live := by
  have apart : [lamp 1, lamp 5].Pairwise Fixture.Apart :=
    List.pairwise_pair.2 (Fixture.apart_of_stop_le (by decide))
  have smooth : twoLamps.Smooth pointAtSecond := by decide +kernel
  refine ⟨by decide +kernel, ?_⟩
  exact frame_confined apart (reliable_frame Frame.dark) _ _ _ _ pointAtSecond smooth

end LightingDesk.Desk
