import LightingDesk.Proofs.Confinement

/-!
# Onsets

The onset of an effect is the frame after its first tick.  It depends on the effect and the frame
that it begins with, so a move that shows or captures the live scene before it starts an effect
leaves no trace of what was played, edited or waited for before.

    frames that agree still do after the same jobs                  (agree_after)
    on a settled desk an effect begins with its onset               (agree_begin)
    an input that leads to picking, staging or manual editing shows
    what follows from the live scene and the choices alone          (press_begins_afresh)
-/

namespace LightingDesk

/-! ## Frames that agree -/

theorem Frame.agree_apply {f g : Frame} (h : f.Agree g) (w : Write) :
    (f.apply w).Agree (g.apply w) := by
  intro c h1 h2
  cases w with
  | run address values => rw [apply, apply, level_store, level_store, h c h1 h2]
  | whole frame => rfl

theorem Frame.agree_foldl {f g : Frame} (h : f.Agree g) (job : Job) :
    (job.foldl Frame.apply f).Agree (job.foldl Frame.apply g) := by
  induction job generalizing f g with
  | nil => exact h
  | cons w rest ih => exact ih (agree_apply h w)

theorem Frame.agree_after {f g : Frame} (h : f.Agree g) (jobs : List Job) :
    (f.after jobs).Agree (g.after jobs) := agree_foldl h jobs.flatten

namespace Fixture

theorem level_of_agree {f : Fixture} {frame g : Frame} (h : frame.Agree g) {c : Nat}
    (hc : f.Owns c) : frame.level c = g.level c := by
  have := le_of_owns hc
  exact h c this.1 (by unfold universeSize; omega)

theorem hasColor_of_agree (f : Fixture) {frame g : Frame} (h : frame.Agree g) :
    f.hasColor frame = f.hasColor g := by
  unfold hasColor
  rw [Bool.eq_iff_iff, List.any_eq_true, List.any_eq_true]
  refine exists_congr fun i => and_congr_right fun hi => ?_
  obtain ⟨channel, -, hc⟩ := List.mem_filterMap.1 hi
  rw [level_of_agree h (owns_add (offset_lt hc))]

theorem values_of_agree (f : Fixture) {frame g : Frame} (h : frame.Agree g) :
    f.values frame = f.values g := f.values_congr fun _ hc => level_of_agree h hc

end Fixture

/-! ## The first tick -/

namespace Effect

/-- The frame after the effect has been started on a memory that holds `frame`. -/
def onset (e : Effect) (frame : Frame) : Frame :=
  (Playback.start e 0 (⟨frame, 0⟩ : Stage Frame)).2.frame

/-- A tick looks at nothing but channels of the universe. -/
theorem tick_of_agree (e : Effect) {frame g : Frame} (h : frame.Agree g) :
    e.tick frame = e.tick g := by
  cases e with
  | highlight hl =>
    have hc : Highlight.colorJob frame = Highlight.colorJob g := by
      funext lit
      unfold Highlight.colorJob
      rw [Fixture.hasColor_of_agree lit.fixture h]
    unfold tick Highlight.tick
    dsimp only
    rw [hc]
  | _ => rfl

end Effect

/-- Where nothing fails and nothing gets stuck, an effect that has been started has ticked. -/
theorem Playback.frame_start {σ : Type} [Sink σ] [LawfulSink σ] {e : Effect} {now : Nat}
    {s : Stage σ} (ticking : (start e now s).1.worker.body = .waits)
    (quiet : (start e now s).2.reported = s.reported) :
    (start e now s).2.frame = s.frame.after (e.tick s.frame).2 := by
  unfold start tick Worker.spawn at *
  dsimp only at *
  split at quiet
  · rename_i hb
    rw [if_pos hb] at ticking
    cases ticking
  · rename_i hb
    rw [if_neg hb]
    exact Stage.frame_play quiet

theorem Effect.onset_eq (e : Effect) (frame : Frame) :
    e.onset frame = frame.after (e.tick frame).2 := by
  have within := Playback.within_start e 0 (⟨frame, 0⟩ : Stage Frame)
  refine Playback.frame_start rfl ?_
  exact (within.reliable (reliable_frame frame)).1

/-- The preview of the staged choice, as it is when it begins on a frame. -/
def Controls.preview (c : Controls) (rig : List Fixture) (frame : Frame) : Effect :=
  match c.staged with
  | .rawDmx => .pulse (.start (c.workingFixtures rig) frame)
  | .rainbow => .cycle (.start .rainbow (c.workingFixtures rig))
  | .preset => .cycle (.start .presets (c.workingFixtures rig))

theorem Controls.preview_of_agree (c : Controls) (rig : List Fixture) {frame g : Frame}
    (h : frame.Agree g) : c.preview rig frame = c.preview rig g := by
  have hp : RawPulse.start (c.workingFixtures rig) frame = .start (c.workingFixtures rig) g := by
    unfold RawPulse.start
    congr 1
    exact List.map_congr_left fun f _ => by rw [f.values_of_agree h]
  unfold preview
  rw [hp]

theorem Highlight.add_of_agree (h : Highlight) (i : Nat) (f : Fixture) {frame g : Frame}
    (ha : frame.Agree g) : h.add i f frame = h.add i f g := by
  unfold add
  rw [f.values_of_agree ha]

namespace Desk

variable {σ : Type} [Sink σ]

/-- Whether the effect that plays, if there is one, ticks: none of its writes has got stuck. -/
def isTicking (d : Desk σ) : Bool := d.playing.all (·.worker.body == .waits)

/-- What has to be shown after an input that leads to picking lights, to staging, to another staged
choice or to manual editing: the onset of a fresh highlight of the cursor's fixture alone, the onset
of a fresh preview, or the live scene.  `before` is what had been chosen before the input. -/
structure BeginsAfresh (before : Controls) (d : Desk σ) : Prop where
  lights : d.controls.mode = .lights → before.mode ≠ .lights →
    ∃ f, d.rig[d.controls.cursor]? = some f ∧
      d.stage.frame.Agree
        ((Effect.highlight (Highlight.empty.add d.controls.cursor f d.scenes.ring.live)).onset
          d.scenes.ring.live)
  staging : d.controls.mode = .staging →
    before.mode ≠ .staging ∨ before.staged ≠ d.controls.staged →
    d.stage.frame.Agree
      ((d.controls.preview d.rig d.scenes.ring.live).onset d.scenes.ring.live)
  manual : d.controls.mode = .manual → before.mode ≠ .manual →
    d.stage.frame.Agree d.scenes.ring.live

theorem startPreview_eq (d : Desk σ) :
    d.startPreview = d.begin (d.controls.preview d.rig d.stage.frame) := by
  unfold startPreview Controls.preview
  cases d.controls.staged <;> rfl

/-- Where the mode and the staged choice stay, nothing has to begin. -/
theorem afresh_of_stay {before : Controls} {d : Desk σ} (hm : d.controls.mode = before.mode)
    (hs : d.controls.staged = before.staged) : d.BeginsAfresh before where
  lights h hn := absurd (hm ▸ h) hn
  staging h hn := by
    rcases hn with hn | hn
    · exact absurd (hm ▸ h) hn
    · exact absurd hs.symm hn
  manual h hn := absurd (hm ▸ h) hn

theorem afresh_of_mode {before : Controls} {d : Desk σ}
    (h : d.controls.mode ∈ [Mode.idle, .chase, .wheel, .preset, .party, .scary]) :
    d.BeginsAfresh before := by
  constructor <;> intro hm <;> rw [hm] at h <;> simp at h

variable [LawfulSink σ]

theorem agree_begin {d : Desk σ} {e : Effect} {live : Frame} (h : d.stage.frame.Agree live)
    (quiet : (d.begin e).stage.reported = d.stage.reported)
    (ticking : (d.begin e).isTicking = true) : (d.begin e).stage.frame.Agree (e.onset live) := by
  have hw : (Playback.start e d.now d.stage).1.worker.body = .waits := by
    simpa [isTicking, begin] using ticking
  have hf : (d.begin e).stage.frame = d.stage.frame.after (e.tick d.stage.frame).2 :=
    Playback.frame_start hw quiet
  rw [hf, e.onset_eq, e.tick_of_agree h]
  exact Frame.agree_after h _

theorem afresh_startHighlight {before : Controls} {d : Desk σ} (settled : d.Settled)
    (hm : d.controls.mode = .lights) (hc : d.controls.cursor < d.rig.length)
    (quiet : d.startHighlight.stage.reported = d.stage.reported)
    (ticking : d.startHighlight.isTicking = true) : d.startHighlight.BeginsAfresh before := by
  have hf : d.rig[d.controls.cursor]? = some d.rig[d.controls.cursor] :=
    List.getElem?_eq_getElem hc
  have he : d.startHighlight =
      d.begin (.highlight (Highlight.empty.add d.controls.cursor d.rig[d.controls.cursor]
        d.scenes.ring.live)) := by
    simp only [startHighlight, hf]
    rw [Highlight.add_of_agree _ _ _ settled]
  rw [he] at quiet ticking ⊢
  refine ⟨fun _ _ => ⟨_, hf, agree_begin settled quiet ticking⟩, ?_, ?_⟩
  · intro h
    cases hm.symm.trans h
  · intro h
    cases hm.symm.trans h

theorem afresh_startPreview {before : Controls} {d : Desk σ} (settled : d.Settled)
    (hm : d.controls.mode = .staging)
    (quiet : d.startPreview.stage.reported = d.stage.reported)
    (ticking : d.startPreview.isTicking = true) : d.startPreview.BeginsAfresh before := by
  rw [startPreview_eq, Controls.preview_of_agree _ _ settled] at quiet ticking ⊢
  refine ⟨?_, fun _ _ => agree_begin settled quiet ticking, ?_⟩
  · intro h
    cases hm.symm.trans h
  · intro h
    cases hm.symm.trans h

/-- A move that starts an effect shows or captures the live scene right before that. -/
theorem afresh_fulfil {d : Desk σ} {m : Move} (hm : d.controls.mode ∈ m.modes)
    (sound : (d.controls.after d.rig m).Sound d.rig)
    (quiet : (d.fulfil m).stage.reported = d.stage.reported)
    (ticking : (d.fulfil m).isTicking = true) : (d.fulfil m).BeginsAfresh d.controls := by
  have hmode := controls_fulfil d m
  have hfulfil := fulfil_eq d m
  obtain ⟨hprep, hconclude⟩ := quiet_fulfil quiet
  cases m with
  | enterLights | keepEdit =>
    rw [hfulfil] at quiet ticking ⊢
    exact afresh_startHighlight (settled_captureFrame d) rfl (sound.cursor_lt (sound.rig_ne rfl))
      quiet ticking
  | backToLights =>
    rw [hfulfil] at hconclude ticking ⊢
    exact afresh_startHighlight (settled_showLive hprep) rfl (sound.cursor_lt (sound.rig_ne rfl))
      hconclude ticking
  | commitSelection | dropEdit =>
    rw [hfulfil] at hconclude ticking ⊢
    refine afresh_startPreview ?_ rfl hconclude ticking
    exact settled_showLive (d := d) hprep
  | restage turn =>
    have hs : d.controls.mode = .staging := by simpa [Move.modes] using hm
    rw [hfulfil] at hconclude ticking ⊢
    refine afresh_startPreview ?_ hs hconclude ticking
    exact settled_showLive (d := d) hprep
  | commitStaged =>
    by_cases hraw : d.controls.staged = .rawDmx
    · -- manual editing begins with the live scene
      have hp : d.prepare .commitStaged = d.showLive := if_pos hraw
      have hc : (d.fulfil .commitStaged).controls.mode = .manual := by
        rw [hmode]
        simp [Controls.after, Controls.commitStaged, hraw]
      rw [hp] at hprep
      refine ⟨?_, ?_, fun _ _ => ?_⟩
      · intro h
        cases hc.symm.trans h
      · intro h
        cases hc.symm.trans h
      · rw [hfulfil, hp]
        exact settled_showLive hprep
    · refine afresh_of_mode ?_
      rw [hmode]
      cases hs : d.controls.staged <;>
        simp_all [Controls.after, Controls.commitStaged]
  | channel turn =>
    obtain ⟨index, hindex⟩ := d.controls.turnChannel_eq d.rig turn
    have hc : (d.fulfil (.channel turn)).controls = { d.controls with channelIndex := index } :=
      hmode.trans hindex
    exact afresh_of_stay (by rw [hc]) (by rw [hc])
  | leaveLights | leaveShow | stopChase | startChase =>
    refine afresh_of_mode ?_
    rw [hmode]
    simp [Controls.after, Controls.deselect]
  | slower | faster =>
    have hc : d.controls.mode = .chase := by simpa [Move.modes] using hm
    refine afresh_of_mode (List.mem_cons_of_mem _ (List.mem_cons.2 (.inl ?_)))
    rw [hmode]
    exact (Controls.mode_retime d.controls _).trans hc
  | enterShow chosen =>
    refine afresh_of_mode ?_
    rw [hmode]
    cases chosen <;> simp [Controls.after, MotionShow.mode]
  | _ => exact afresh_of_stay (by rw [hmode]; rfl) (by rw [hmode]; rfl)

omit [LawfulSink σ] in
theorem sound_of_reachable {d : Desk σ} (h : d.Reachable) : d.controls.Sound d.rig := by
  obtain ⟨rig, sink, scenes, delay, stopLimit, dice, inputs, rfl⟩ := h
  exact sound_run (Controls.sound_start rig delay) inputs

/-- Whatever has happened to a desk, a press that is carried out without a failure, and that leads
to picking lights, to staging, to another staged choice or to manual editing, shows what follows
from the live scene, the rig and the choices alone. -/
theorem press_begins_afresh {d : Desk σ} (reachable : d.Reachable) {i : Input} {a : Action}
    (pressed : i.pressed? = some a) (ok : (d.step i).2 = .ok ())
    (quiet : (d.step i).1.stage.reported = d.stage.reported)
    (ticking : (d.step i).1.isTicking = true) : (d.step i).1.BeginsAfresh d.controls := by
  have sound := sound_step d i (sound_of_reachable reachable)
  have hd := dealt_step d i
  generalize d.step i = out at hd ok quiet ticking sound
  cases hd with
  | ignored => exact afresh_of_stay rfl rfl
  | stuck e => cases ok
  | painted color unpressed => rw [pressed] at unpressed; cases unpressed
  | followed magnitude unpressed => rw [pressed] at unpressed; cases unpressed
  | waited span waits => rw [waits] at pressed; cases pressed
  | moved a' m pressed' asked =>
    have hc := controls_clearedFor d m
    rw [← hc]
    refine afresh_fulfil ?_ ?_ (quiet_moved quiet).2 ticking
    · rw [hc]
      exact Move.mode_mem_modes asked
    · rw [← controls_fulfil, ← rig_fulfil]
      exact sound

/-- Points at the second lamp as well, looks at the pulse for a while and goes back. -/
def pulseBoth : List Input :=
  [.press .b1, .press .ps2, .press .right, .press .b1, .press .right, .wait 30000000]

theorem press_begins_afresh_twoLamps :
    (twoLamps.run pulseBoth).controls.staged = .rawDmx ∧
      ((twoLamps.run pulseBoth).step (.press .b2)).1.stage.frame.Agree
        ((Effect.highlight (Highlight.empty.add 1 (lamp 5) Frame.dark)).onset Frame.dark) := by
  have reachable : (twoLamps.run pulseBoth).Reachable := ⟨_, _, _, _, _, _, pulseBoth, rfl⟩
  have ok : ((twoLamps.run pulseBoth).step (.press .b2)).2 = .ok () := by decide +kernel
  have within := within_step (twoLamps.run pulseBoth) (.press .b2)
  have quiet := (within.reliable (reliable_frame _)).1
  have ticking : ((twoLamps.run pulseBoth).step (.press .b2)).1.isTicking = true := by
    decide +kernel
  have afresh := press_begins_afresh reachable (a := .b2) rfl ok quiet ticking
  obtain ⟨f, hf, agree⟩ := afresh.lights (by decide +kernel) (by decide +kernel)
  have hc : ((twoLamps.run pulseBoth).step (.press .b2)).1.controls.cursor = 1 := by
    decide +kernel
  have hl : ((twoLamps.run pulseBoth).step (.press .b2)).1.scenes.ring.live = Frame.dark := rfl
  rw [hc, hl] at agree
  rw [hc, rig_step, rig_run] at hf
  cases hf
  exact ⟨by decide +kernel, agree⟩

end Desk

end LightingDesk
