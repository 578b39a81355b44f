import LightingDesk.Proofs.Bounds
import LightingDesk.Proofs.Highlighting
import LightingDesk.Proofs.Prompt

/-!
# Shutting down

Whenever a desk is switched off, it is enough that its effect gives back what it owes.  What it owes
are levels of the live scene: those of the highlighted fixtures while lights are being picked, those
of the working set while raw editing is staged, and nothing at any other time.

    what may differ from the live scene is owed            (owned_of_free)
    what is owed are levels of the live scene              (snapped_step)
    shutting down stops everything and gives back the live scene where it has been covered
                                                           (shutdown_restores)
-/

namespace LightingDesk

/-- The moves that lead to staging or stay there. -/
theorem Controls.staging_after {c : Controls} {rig : List Fixture} {m : Move}
    (hm : c.mode ∈ m.modes) (h : (c.after rig m).mode = .staging) :
    m = .commitSelection ∨ (∃ turn, m = .restage turn) ∨ m = .dropEdit := by
  cases m with
  | commitSelection => exact .inl rfl
  | restage turn => exact .inr (.inl ⟨turn, rfl⟩)
  | dropEdit => exact .inr (.inr rfl)
  | commitStaged =>
    simp only [after, commitStaged] at h
    split at h <;> simp at h
  | channel turn =>
    obtain ⟨index, hindex⟩ := c.turnChannel_eq rig turn
    rw [after, hindex] at h
    simp_all [Move.modes]
  | slower | faster =>
    rw [after, mode_retime] at h
    simp_all [Move.modes]
  | enterShow chosen => cases chosen <;> cases h
  | _ => simp_all [after, Move.modes, deselect]

namespace Desk

variable {σ : Type} [Sink σ]

/-! ## What is owed -/

/-- Whether the mode covers the live scene with something that has to be taken back. -/
def Covers (d : Desk σ) : Prop :=
  d.controls.mode = .lights ∨ d.controls.mode = .staging ∧ d.controls.staged = .rawDmx

/-- Whether what is owed are levels of the live scene. -/
def Snapped (d : Desk σ) : Prop :=
  ∀ light ∈ d.owed, light.2 = light.1.values d.scenes.ring.live

omit [Sink σ] in
theorem owed_of_uncovered {d : Desk σ} (tuned : d.Tuned) (h : ¬ d.Covers) : d.owed = [] := by
  unfold Covers at h
  unfold Tuned Controls.CallsFor at tuned
  unfold owed
  cases hm : d.controls.mode with
  | lights => exact absurd (.inl hm) h
  | staging =>
    cases hs : d.controls.staged with
    | rawDmx => exact absurd (.inr ⟨hm, hs⟩) h
    | rainbow | preset =>
      simp only [hm, hs] at tuned
      rw [tuned]
      rfl
  | chase =>
    simp only [hm] at tuned
    rw [tuned]
    rfl
  | _ =>
    simp only [hm] at tuned
    rw [tuned]

omit [Sink σ] in
/-- A covered channel that may differ from the live scene belongs to a fixture that is owed its
levels. -/
theorem owned_of_free {d : Desk σ} (tuned : d.Tuned) (h : d.Covers) {c : Nat} (hc : d.Free c) :
    ∃ light ∈ d.owed, light.1.Owns c := by
  unfold Free at hc
  rcases h with hm | ⟨hm, hs⟩
  · obtain ⟨lights, hp, ha⟩ := (Controls.callsFor_lights hm).1 tuned
    simp only [hm, lights_eq hp] at hc
    obtain ⟨lit, hl, f, hf, hc⟩ := hc
    rw [ha.placed.fixture_eq lit hl] at hf
    cases hf
    rw [owed, hp]
    exact ⟨(lit.fixture, lit.saved), List.mem_map.2 ⟨lit, hl, rfl⟩,
      hc.elim Fixture.owns_of_hasAt Fixture.owns_of_defaultColorAt⟩
  · unfold Tuned Controls.CallsFor at tuned
    simp only [hm, hs] at tuned
    obtain ⟨lights, hp, hw⟩ := tuned
    simp only [hm, if_pos hs, workingFixtures, ← hw] at hc
    obtain ⟨f, hf, hc⟩ := hc
    obtain ⟨light, hl, rfl⟩ := List.mem_map.1 hf
    rw [owed, hp]
    exact ⟨light, hl, hc.elim Fixture.owns_of_hasAt Fixture.owns_of_whiteAt⟩

/-- While lights are being picked, what is owed is what the highlight has saved. -/
theorem snapped_of_lights {d : Desk σ} (confined : d.Confined) (tuned : d.Tuned)
    (hm : d.controls.mode = .lights) : d.Snapped := by
  obtain ⟨lights, hp, -⟩ := (Controls.callsFor_lights hm).1 tuned
  intro light hl
  rw [owed, hp] at hl
  obtain ⟨lit, hlit, rfl⟩ := List.mem_map.1 hl
  exact confined.saved_eq hm lit (by rwa [lights_eq hp])

/-- A preview that begins on the live scene saves levels of it. -/
theorem snapped_startPreview {d : Desk σ} (settled : d.Settled) (c : Controls) :
    (d.choose c).startPreview.Snapped := by
  rw [startPreview_eq]
  intro light hl
  rw [owed, piece?_begin] at hl
  unfold Controls.preview choose at hl
  cases hs : c.staged with
  | rawDmx =>
    simp only [hs] at hl
    obtain ⟨f, -, rfl⟩ := List.mem_map.1 hl
    exact f.values_of_agree settled
  | rainbow | preset =>
    simp only [hs] at hl
    cases hl

variable [LawfulSink σ]

/-- What is owed for the working set stays so until something else is staged. -/
theorem snapped_staging {d : Desk σ} {i : Input} (ok : (d.step i).2 = .ok ())
    (quiet : (d.step i).1.stage.reported = d.stage.reported) (h : d.Snapped)
    (hm : (d.step i).1.controls.mode = .staging) : (d.step i).1.Snapped := by
  have hd := dealt_step d i
  generalize d.step i = out at hd ok quiet hm
  cases hd with
  | ignored | painted | followed => exact h
  | stuck e => cases ok
  | waited span =>
    unfold Snapped owed
    rw [piece?_wait, scenes_wait]
    exact h
  | moved a m pressed asked =>
    obtain ⟨-, hq⟩ := quiet_moved quiet
    obtain ⟨hprep, -⟩ := quiet_fulfil hq
    rw [controls_fulfil] at hm
    have hmodes : (d.clearedFor m).controls.mode ∈ m.modes := by
      rw [controls_clearedFor]
      exact Move.mode_mem_modes asked
    -- whichever move it is, it shows the live scene before it starts the preview
    have settled : (d.clearedFor m).prepare m = (d.clearedFor m).showLive →
        ((d.clearedFor m).prepare m).Settled := by
      intro he
      rw [he] at hprep ⊢
      exact settled_showLive hprep
    rw [fulfil_eq]
    rcases Controls.staging_after hmodes hm with rfl | ⟨turn, rfl⟩ | rfl
    all_goals
      dsimp only [conclude]
      exact snapped_startPreview (settled rfl) _

theorem snapped_step {d : Desk σ} {i : Input} (ok : (d.step i).2 = .ok ())
    (quiet : (d.step i).1.stage.reported = d.stage.reported) (tuned' : (d.step i).1.Tuned)
    (confined' : (d.step i).1.Confined) (h : d.Snapped) : (d.step i).1.Snapped := by
  by_cases hc : (d.step i).1.Covers
  · rcases hc with hm | ⟨hm, -⟩
    · exact snapped_of_lights confined' tuned' hm
    · exact snapped_staging ok quiet h hm
  · intro light hl
    rw [owed_of_uncovered tuned' hc] at hl
    cases hl

/-! ## Shutting down -/

/-- A desk that could be shut down now: what plays is called for, and what differs from the live
scene can be given back. -/
structure Closable (d : Desk σ) : Prop where
  tuned : d.Tuned
  confined : d.Confined
  snapped : d.Snapped

theorem closable_run {rig : List Fixture} (apart : rig.Pairwise Fixture.Apart) {sink : σ}
    (scenes : SceneStore) (delay stopLimit : Nat) (dice : Nat → Color) {inputs : List Input}
    (smooth : (start rig sink scenes delay stopLimit dice).Smooth inputs)
    (quiet : ((start rig sink scenes delay stopLimit dice).run inputs).stage.reported = 0) :
    ((start rig sink scenes delay stopLimit dice).run inputs).Closable := by
  have first : (start rig sink scenes delay stopLimit dice).Closable :=
    ⟨tuned_start rig sink scenes delay stopLimit dice, confined_of_mode (.head _), nofun⟩
  refine (quiet_run_keeps
    (P := fun d : Desk σ => d.rig = rig ∧ d.controls.Sound d.rig ∧ d.Closable) ?_
    ⟨rfl, Controls.sound_start rig delay, first⟩ smooth quiet).2.2
  intro d i ok hq ⟨hr, sound, h⟩
  have tuned' := tuned_step d i ok sound h.tuned
  have confined' := confined_step (hr ▸ apart) ok hq sound h.tuned h.confined
  exact ⟨(rig_step d i).trans hr, sound_step d i sound, tuned', confined',
    snapped_step ok hq tuned' confined' h.snapped⟩

/-- A desk may be switched off at any moment.  Where no two fixtures share a channel, no write gets
stuck and none has failed, shutting down succeeds, and changes nothing but the lights and the
effect, which is gone.  If lights were being picked, or raw editing was staged, the live scene shows
afterwards; otherwise the lights stay as they are. -/
theorem shutdown_restores {rig : List Fixture} (apart : rig.Pairwise Fixture.Apart) {sink : σ}
    (prompt : Sink.Prompt sink) (scenes : SceneStore) (delay stopLimit : Nat) (dice : Nat → Color)
    (inputs : List Input) {d : Desk σ}
    (hd : d = (start rig sink scenes delay stopLimit dice).run inputs)
    (quiet : d.shutdown.1.stage.reported = 0) :
    d.shutdown.2 = .ok () ∧
    d.shutdown.1 = { d with stage := d.shutdown.1.stage, playing := none } ∧
    (d.controls.mode = .lights ∨ d.controls.mode = .staging ∧ d.controls.staged = .rawDmx →
      d.shutdown.1.stage.frame.Agree d.scenes.ring.live) ∧
    (¬ (d.controls.mode = .lights ∨ d.controls.mode = .staging ∧ d.controls.staged = .rawDmx) →
      d.shutdown.1.stage.frame = d.stage.frame) := by
  have hrun := within_run (start rig sink scenes delay stopLimit dice) inputs
  have hstop := within_stopEffect d
  rw [← hd] at hrun
  obtain ⟨before, after⟩ := hrun.quiet_parts hstop quiet
  have smooth : (start rig sink scenes delay stopLimit dice).Smooth inputs :=
    smooth_of_prompt rfl prompt inputs
  have closable : d.Closable := by
    rw [hd] at before ⊢
    exact closable_run apart scenes delay stopLimit dice smooth before
  have ticking := ticking_run (d := start rig sink scenes delay stopLimit dice) rfl prompt inputs
  rw [← hd] at ticking
  obtain ⟨author, hs⟩ := stopEffect_of_ticking ticking.1 ticking.2
  have hframe : d.shutdown.1.stage.frame =
      d.stage.frame.after (d.owed.map fun light => light.1.setValues light.2) := by
    unfold shutdown
    rw [hs] at after ⊢
    exact Stage.frame_play after
  refine ⟨by rw [shutdown, hs], by rw [shutdown, hs], ?_, ?_⟩
  · intro covers
    rw [hframe]
    exact agree_restored closable.snapped
      (closable.confined.agree.mono fun c => owned_of_free closable.tuned covers)
  · intro uncovered
    rw [hframe, owed_of_uncovered closable.tuned uncovered]
    rfl

theorem shutdown_restores_twoLamps :
    (twoLamps.run pulseBoth).stage.frame.level 5 = 245 ∧
      (twoLamps.run pulseBoth).shutdown.1.stage.frame.Agree Frame.dark := by
  have apart : [lamp 1, lamp 5].Pairwise Fixture.Apart :=
    List.pairwise_pair.2 (Fixture.apart_of_stop_le (by decide))
  have quiet : (twoLamps.run pulseBoth).shutdown.1.stage.reported = 0 := by decide +kernel
  have all := shutdown_restores apart (Sink.prompt_frame Frame.dark) (.inMemory []) 0 0
    (fun _ => .white) pulseBoth (d := twoLamps.run pulseBoth) rfl quiet
  exact ⟨by decide +kernel, all.2.2.1 (.inr ⟨by decide +kernel, by decide +kernel⟩)⟩

end Desk

end LightingDesk
