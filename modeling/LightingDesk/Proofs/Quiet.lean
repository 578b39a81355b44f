import LightingDesk.Proofs.Playing

/-!
# Quiet runs

A run is quiet if no job fails on the way, so that nothing more is reported after it than before.
What is reported never gets less, so every step of a quiet run is quiet as well.  All jobs of a desk
fit, so every run on a reliable sink is quiet.

    each part of a step stays within channels of its own       (within_paint, within_follow, ...)
    a step goes on whatever the input                          (within_step)
    what every quiet step keeps is kept by quiet runs          (quiet_run_keeps)
    runs on a reliable sink are quiet                          (quiet_of_reliable)
-/

namespace LightingDesk

/-- Whether channel `c` is a dimmer of the fixture or carries its color. -/
def Fixture.GlowsAt (f : Fixture) (c : Nat) : Prop := f.HasAt "dimmer" c ∨ f.ColorAt c

namespace Desk

variable {σ : Type} [Sink σ] [LawfulSink σ]

/-! ## What the parts of a step touch -/

theorem within_paint (d : Desk σ) (color : Color) :
    d.stage.Within (fun c => ∃ f ∈ d.workingFixtures, f.GlowsAt c) (d.paint color).stage := by
  refine Stage.within_play _ _ ?_
  intro job hj
  obtain ⟨f, hf, rfl⟩ := List.mem_map.1 hj
  exact (Fixture.staysIn_setColor f color).mono fun c hc => ⟨f, hf, .inr hc⟩

theorem within_paintPreset (d : Desk σ) :
    d.stage.Within (fun c => ∃ f ∈ d.workingFixtures, f.GlowsAt c) d.paintPreset.stage := by
  refine Stage.within_play _ _ ?_
  intro job hj
  obtain ⟨f, hf, hj⟩ := List.mem_flatMap.1 hj
  simp only [List.mem_cons, List.not_mem_nil, or_false] at hj
  rcases hj with rfl | rfl
  · exact (Fixture.staysIn_setColor f _).mono fun c hc => ⟨f, hf, .inr hc⟩
  · exact (Fixture.staysIn_setDimmer f 255).mono fun c hc => ⟨f, hf, .inl hc⟩

theorem within_adjust (d : Desk σ) (change : UInt8 → UInt8) :
    d.stage.Within (fun c => ∃ f ∈ d.workingFixtures, f.Owns c) (d.adjust change).stage := by
  refine Stage.within_play _ _ ?_
  intro job hj
  obtain ⟨f, hf, hj⟩ := List.mem_filterMap.1 hj
  obtain ⟨v, -, rfl⟩ := Option.map_eq_some_iff.1 hj
  refine (Fixture.staysIn_setChannel f _ _).mono ?_
  rintro c ⟨hi, rfl⟩
  exact ⟨f, hf, Fixture.owns_add hi⟩

theorem within_blackOut (d : Desk σ) :
    d.stage.Within (fun c => ∃ f ∈ d.workingFixtures, f.Owns c)
      (d.play (d.workingFixtures.map (·.clear))).stage := by
  refine Stage.within_play _ _ ?_
  intro job hj
  obtain ⟨f, hf, rfl⟩ := List.mem_map.1 hj
  exact (Fixture.staysIn_setValues f _).mono fun c hc => ⟨f, hf, hc⟩

theorem within_follow (d : Desk σ) (magnitude : Nat) :
    d.stage.Within (fun c => ∃ f ∈ d.rig, f.GlowsAt c) (d.follow magnitude).stage := by
  refine Stage.within_play _ _ ?_
  intro job hj
  obtain ⟨⟨f, i⟩, hf, hj⟩ := List.mem_flatMap.1 hj
  have hf : f ∈ d.rig := (List.mem_zipIdx' hf).2 ▸ List.getElem_mem _
  simp only [List.mem_cons, List.not_mem_nil, or_false] at hj
  rcases hj with rfl | rfl
  · exact (Fixture.staysIn_setColor f _).mono fun c hc => ⟨f, hf, .inr hc⟩
  · exact (Fixture.staysIn_setDimmer f _).mono fun c hc => ⟨f, hf, .inl hc⟩

theorem within_showFrame (d : Desk σ) (frame : Frame) :
    d.stage.Within (fun _ => True) (d.showFrame frame).stage := by
  have hfits : ∀ job ∈ ([[.whole frame]] : List Job), job.StaysIn fun _ => True := by
    intro job hj
    rw [List.mem_singleton.1 hj]
    refine ⟨?_, fun _ _ => trivial⟩
    intro w hw
    rw [List.mem_singleton.1 hw]
    rfl
  exact Stage.within_play d.stage .desk hfits

/-- A frame that is shown without a failure shows. -/
theorem agree_showFrame {d : Desk σ} {frame : Frame}
    (quiet : (d.showFrame frame).stage.reported = d.stage.reported) :
    (d.showFrame frame).stage.frame.Agree frame := by
  intro c h1 _
  have hq : (d.stage.play .desk [[.whole frame]]).reported = d.stage.reported := quiet
  rw [showFrame, play, Stage.frame_play hq]
  exact Frame.level_grounded frame h1

/-- Whether the lights show the live scene everywhere. -/
def Settled (d : Desk σ) : Prop := d.stage.frame.Agree d.scenes.ring.live

omit [LawfulSink σ] in
theorem settled_captureFrame (d : Desk σ) : d.captureFrame.Settled := fun _ _ _ => rfl

theorem settled_showLive {d : Desk σ} (quiet : d.showLive.stage.reported = d.stage.reported) :
    d.showLive.Settled := agree_showFrame quiet

theorem within_begin (d : Desk σ) (effect : Effect) :
    d.stage.Within effect.piece.Reach (d.begin effect).stage :=
  Playback.within_start effect d.now d.stage

theorem within_retune (d : Desk σ) (p : Playback) (effect : Effect) (stage : Stage σ) :
    stage.Within effect.piece.Reach (d.retune p effect stage).stage :=
  Playback.within_recheck { p with effect } d.now stage

/-- While time passes, only what is playing writes. -/
theorem within_wait (d : Desk σ) (span : Nat) :
    d.stage.Within (fun c => ∃ piece ∈ d.piece?, piece.Reach c) (d.wait span).stage := by
  unfold wait
  dsimp only
  split
  · rename_i p hp
    refine (Playback.within_wait p _ d.stage).mono fun c hc => ⟨p.effect.piece, ?_, hc⟩
    rw [piece?, hp]
    rfl
  · exact .refl _ _

/-- Stopping touches nothing but the fixtures whose levels are put back. -/
theorem within_stopEffect (d : Desk σ) :
    d.stage.Within (fun c => ∃ piece ∈ d.piece?, ∃ light ∈ piece.saved, light.1.Owns c)
      d.stopEffect.1.stage := by
  unfold stopEffect
  split
  · exact .refl _ _
  · rename_i p hp
    refine (Playback.within_stop p _ d.stage).mono fun c hc => ⟨p.effect.piece, ?_, hc⟩
    rw [piece?, hp]
    rfl

theorem within_clearedFor (d : Desk σ) (m : Move) :
    d.stage.Within (fun _ => True) (d.clearedFor m).stage := by
  unfold clearedFor
  split
  · exact (within_stopEffect d).mono fun _ _ => trivial
  · exact .refl _ _

/-! ## A whole step -/

theorem within_dropLight (i : Nat) (h : Highlight × Stage σ) :
    h.2.Within (fun _ => True) (dropLight i h).2 := by
  refine Stage.within_play _ _ ?_
  intro job hj
  split at hj
  · rw [List.mem_singleton.1 hj]
    exact (Fixture.staysIn_setValues _ _).mono fun _ _ => trivial
  · cases hj

theorem within_drop (places : List Nat) (h : Highlight × Stage σ) :
    h.2.Within (fun _ => True) (places.foldl (fun h i => dropLight i h) h).2 := by
  induction places generalizing h with
  | nil => exact .refl _ _
  | cons i rest ih => exact (within_dropLight i h).trans (ih (dropLight i h))

theorem within_leave (c : Controls) (h : Highlight × Stage σ) :
    h.2.Within (fun _ => True) (leave c h).2 := by
  unfold leave
  split
  · exact .refl _ _
  · exact within_dropLight c.cursor h

theorem within_editHighlight (d : Desk σ) {edit : Highlight × Stage σ → Highlight × Stage σ}
    (he : ∀ h : Highlight × Stage σ, h.2.Within (fun _ => True) (edit h).2) :
    d.stage.Within (fun _ => True) (d.editHighlight edit).stage := by
  unfold editHighlight
  split
  · split
    · rename_i h _
      exact (he (h, d.stage)).trans ((within_retune d _ _ _).mono fun _ _ => trivial)
    · exact .refl _ _
  · exact .refl _ _

theorem within_pointAt (d : Desk σ) (i : Nat) :
    d.stage.Within (fun _ => True) (d.pointAt i).stage := by
  unfold pointAt
  split
  · exact within_editHighlight d fun h => within_leave d.controls h
  · exact .refl _ _

theorem within_prepare (d : Desk σ) (m : Move) :
    d.stage.Within (fun _ => True) (d.prepare m).stage := by
  cases m with
  | scene turn => exact within_showFrame { d with scenes := _ } _
  | liveScene | commitSelection | leaveLights | restage | backToLights | dropEdit | stopChase
  | leaveShow =>
    exact within_showFrame d _
  | deleteScene => exact within_showFrame { d with scenes := _ } _
  | commitStaged =>
    unfold prepare
    dsimp only
    split
    · exact within_showFrame d _
    · exact .refl _ _
  | cursor turn => exact within_pointAt d _
  | clearSelection => exact within_editHighlight d fun h => within_drop _ h
  | raise | lower => exact (within_adjust d _).mono fun _ _ => trivial
  | blackOut => exact (within_blackOut d).mono fun _ _ => trivial
  | _ => exact .refl _ _

theorem within_conclude (d : Desk σ) (m : Move) :
    d.stage.Within (fun _ => True) (d.conclude m).stage := by
  have hb := fun effect => (within_begin d effect).mono fun _ _ => trivial
  cases m with
  | enterLights | backToLights | keepEdit =>
    unfold conclude startHighlight
    dsimp only
    split <;> exact hb _
  | commitSelection | restage | dropEdit =>
    unfold conclude startPreview
    dsimp only
    split <;> exact hb _
  | startChase =>
    unfold conclude startChase
    dsimp only
    split
    · exact hb _
    · exact .refl _ _
  | preset => exact (within_paintPreset d).mono fun _ _ => trivial
  | slower | faster =>
    unfold conclude passDelay
    dsimp only
    split
    · split
      · exact (within_retune d _ _ _).mono fun _ _ => trivial
      · exact .refl _ _
    · exact .refl _ _
  | _ => exact .refl _ _

theorem within_fulfil (d : Desk σ) (m : Move) :
    d.stage.Within (fun _ => True) (d.fulfil m).stage := by
  rw [fulfil_eq]
  have h := within_conclude ((d.prepare m).choose (d.controls.after d.rig m)) m
  exact (within_prepare d m).trans h

/-- A quiet move is quiet before the choices change, and from then on. -/
theorem quiet_fulfil {d : Desk σ} {m : Move}
    (quiet : (d.fulfil m).stage.reported = d.stage.reported) :
    (d.prepare m).stage.reported = d.stage.reported ∧
      (d.fulfil m).stage.reported = (d.prepare m).stage.reported := by
  have conclude := within_conclude ((d.prepare m).choose (d.controls.after d.rig m)) m
  rw [← fulfil_eq] at conclude
  exact (within_prepare d m).quiet_parts conclude quiet

/-- A quiet move is quiet when the effect stops, and from then on. -/
theorem quiet_moved {d : Desk σ} {m : Move}
    (quiet : ((d.clearedFor m).fulfil m).stage.reported = d.stage.reported) :
    (d.clearedFor m).stage.reported = d.stage.reported ∧
      ((d.clearedFor m).fulfil m).stage.reported = (d.clearedFor m).stage.reported :=
  (within_clearedFor d m).quiet_parts (within_fulfil (d.clearedFor m) m) quiet

/-- Whatever the input, a step only makes writes that fit, and reports only more. -/
theorem within_step (d : Desk σ) (i : Input) :
    d.stage.Within (fun _ => True) (d.step i).1.stage := by
  have h := dealt_step d i
  generalize d.step i = out at h
  cases h with
  | ignored => exact .refl _ _
  | moved a m => exact (within_clearedFor d m).trans (within_fulfil _ m)
  | stuck => exact (within_stopEffect d).mono fun _ _ => trivial
  | painted => exact (within_paint d _).mono fun _ _ => trivial
  | followed => exact (within_follow d _).mono fun _ _ => trivial
  | waited span => exact (within_wait d span).mono fun _ _ => trivial

/-! ## Runs -/

theorem within_run (d : Desk σ) (inputs : List Input) :
    d.stage.Within (fun _ => True) (d.run inputs).stage :=
  run_keeps (P := fun d' : Desk σ => d.stage.Within (fun _ => True) d'.stage)
    (fun d' i h => h.trans (within_step d' i)) (.refl _ _) inputs

/-- All runs on a reliable sink are quiet. -/
theorem quiet_of_reliable {d : Desk σ} (h : Sink.Reliable d.stage.sink) (inputs : List Input) :
    (d.run inputs).stage.reported = d.stage.reported :=
  ((within_run d inputs).reliable h).1

theorem quiet_cons {d : Desk σ} {i : Input} {rest : List Input}
    (quiet : (d.run (i :: rest)).stage.reported = d.stage.reported) :
    (d.step i).1.stage.reported = d.stage.reported ∧
      ((d.step i).1.run rest).stage.reported = (d.step i).1.stage.reported :=
  (within_step d i).quiet_parts (within_run (d.step i).1 rest) quiet

/-- What every quiet step without an error keeps holds after every quiet and smooth run. -/
theorem quiet_run_keeps {P : Desk σ → Prop}
    (keeps : ∀ d i, (d.step i).2 = .ok () → (d.step i).1.stage.reported = d.stage.reported →
      P d → P (d.step i).1)
    {d : Desk σ} (h : P d) {inputs : List Input} (smooth : d.Smooth inputs)
    (quiet : (d.run inputs).stage.reported = d.stage.reported) : P (d.run inputs) := by
  induction inputs generalizing d with
  | nil => exact h
  | cons i rest ih =>
    obtain ⟨hi, hrest⟩ := quiet_cons quiet
    exact ih (keeps d i smooth.1 hi h) smooth.2 hrest

end Desk

end LightingDesk
