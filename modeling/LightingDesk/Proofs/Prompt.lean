import LightingDesk.Proofs.Onset

/-!
# Prompt sinks

A sink is prompt if no write of an effect ever gets stuck on it, whatever has been written before.
On a prompt sink an effect that plays goes on ticking until it is stopped, and it always stops, so
every run is smooth.

    every step leaves the effect ticking                           (ticking_step)
    an effect that ticks puts back what it owes when it is stopped (stopEffect_of_ticking)
    every run on a prompt sink is smooth                           (smooth_of_prompt)
-/

namespace LightingDesk

variable {σ : Type} [Sink σ]

/-! ## Sinks and stages -/

namespace Sink

/-- No write of an effect ever gets stuck on the sink. -/
def Prompt (s : σ) : Prop := ∀ writes, hangs (after s writes) = false

theorem Prompt.hangs_eq {s : σ} (h : Prompt s) : hangs s = false := h []

theorem prompt_after {s : σ} (h : Prompt s) (writes : List (Author × Write)) :
    Prompt (after s writes) := by
  intro later
  rw [← after_append]
  exact h (writes ++ later)

/-- Nothing gets stuck in memory. -/
theorem prompt_frame (f : Frame) : Prompt f := fun _ => rfl

end Sink

theorem Stage.Within.prompt {P : Nat → Prop} {s s' : Stage σ} (h : s.Within P s')
    (hs : Sink.Prompt s.sink) : Sink.Prompt s'.sink := by
  obtain ⟨writes, hw⟩ := h.led
  rw [hw]
  exact Sink.prompt_after hs writes

/-! ## Playbacks -/

namespace Playback

theorem blocks_of_prompt {s : Stage σ} (hs : Sink.Prompt s.sink) (jobs : List Job) :
    blocks s jobs = false := by
  unfold blocks
  rw [hs.hangs_eq]
  rfl

theorem waits_tick {p : Playback} (h : p.worker.body = .waits) {s : Stage σ}
    (hs : Sink.Prompt s.sink) : (p.tick s).1.worker.body = .waits := by
  unfold tick
  rw [h]
  dsimp only
  rw [blocks_of_prompt hs]
  exact h

/-- What an effect that ticks does when it is stopped. -/
theorem stop_of_waits {p : Playback} (h : p.worker.body = .waits) {s : Stage σ}
    (hs : Sink.Prompt s.sink) (limit : Nat) :
    p.stop limit s = (s.play (.effect p.effect.name) p.effect.restore.2, .ok ()) := by
  unfold stop
  rw [h]
  dsimp only
  rw [blocks_of_prompt hs]
  simp [Worker.stop, h]

theorem waits_start (effect : Effect) (now : Nat) {s : Stage σ} (hs : Sink.Prompt s.sink) :
    (start effect now s).1.worker.body = .waits := waits_tick rfl hs

theorem waits_recheck {p : Playback} (h : p.worker.body = .waits) (now : Nat) {s : Stage σ}
    (hs : Sink.Prompt s.sink) : (p.recheck now s).1.worker.body = .waits := by
  unfold recheck
  split
  · exact waits_tick (p := { p with pacer := ⟨now⟩ }) h hs
  · exact h

variable [LawfulSink σ]

theorem waits_ticks (n : Nat) {p : Playback} (h : p.worker.body = .waits) {s : Stage σ}
    (hs : Sink.Prompt s.sink) : (ticks n p s).1.worker.body = .waits := by
  induction n generalizing p s with
  | zero => exact h
  | succ n ih => exact ih (waits_tick h hs) ((within_tick p s).prompt hs)

theorem waits_wait {p : Playback} (h : p.worker.body = .waits) (stop : Nat) {s : Stage σ}
    (hs : Sink.Prompt s.sink) : (p.wait stop s).1.worker.body = .waits :=
  waits_ticks _ (p := { p with pacer := p.pacer.advance p.effect.interval stop }) h hs

end Playback

/-! ## Desks -/

namespace Desk

omit [Sink σ] in
theorem isTicking_iff {d : Desk σ} :
    d.isTicking = true ↔ ∀ p, d.playing = some p → p.worker.body = .waits := by
  unfold isTicking
  cases d.playing <;> simp

omit [Sink σ] in
theorem ticking_of_silent {d : Desk σ} (h : d.playing = none) : d.isTicking = true := by
  rw [isTicking, h]
  rfl

/-- What a desk would give back to its fixtures if it stopped its effect. -/
def owed (d : Desk σ) : List (Fixture × List UInt8) :=
  match d.piece? with
  | some piece => piece.saved
  | none => []

/-- An effect that ticks stops, and gives back what is owed. -/
theorem stopEffect_of_ticking {d : Desk σ} (ticking : d.isTicking = true)
    (prompt : Sink.Prompt d.stage.sink) : ∃ author,
      d.stopEffect =
        ({ d with
            stage := d.stage.play author (d.owed.map fun light => light.1.setValues light.2)
            playing := none }, .ok ()) := by
  cases hp : d.playing with
  | none =>
    refine ⟨.desk, ?_⟩
    have ho : d.owed = [] := by rw [owed, piece?, hp]; rfl
    have hd : { d with playing := none } = d := by rw [← hp]
    simp only [stopEffect, hp, ho]
    exact Prod.ext hd.symm rfl
  | some p =>
    refine ⟨.effect p.effect.name, ?_⟩
    have ho : d.owed = p.effect.piece.saved := by rw [owed, piece?, hp]; rfl
    simp only [stopEffect, hp, ho, ← Effect.restore_eq]
    rw [Playback.stop_of_waits (isTicking_iff.1 ticking p hp) prompt]

theorem ticking_begin {d : Desk σ} (prompt : Sink.Prompt d.stage.sink) (effect : Effect) :
    (d.begin effect).isTicking = true :=
  isTicking_iff.2 fun p hp => by
    rw [← Option.some.inj hp]
    exact Playback.waits_start effect d.now prompt

theorem ticking_retune {d : Desk σ} {p : Playback} (h : p.worker.body = .waits) (effect : Effect)
    {stage : Stage σ} (prompt : Sink.Prompt stage.sink) :
    (d.retune p effect stage).isTicking = true :=
  isTicking_iff.2 fun q hq => by
    rw [← Option.some.inj hq]
    exact Playback.waits_recheck (p := { p with effect }) h d.now prompt

theorem ticking_editHighlight {d : Desk σ} (ticking : d.isTicking = true)
    (prompt : Sink.Prompt d.stage.sink) {edit : Highlight × Stage σ → Highlight × Stage σ}
    (he : ∀ h : Highlight × Stage σ, h.2.Within (fun _ => True) (edit h).2) :
    (d.editHighlight edit).isTicking = true := by
  unfold editHighlight
  split
  · rename_i p hp
    split
    · rename_i h _
      exact ticking_retune (isTicking_iff.1 ticking p hp) _ ((he (h, d.stage)).prompt prompt)
    · exact ticking
  · exact ticking

theorem ticking_startHighlight {d : Desk σ} (prompt : Sink.Prompt d.stage.sink) :
    d.startHighlight.isTicking = true := by
  unfold startHighlight
  dsimp only
  split <;> exact ticking_begin prompt _

theorem ticking_startPreview {d : Desk σ} (prompt : Sink.Prompt d.stage.sink) :
    d.startPreview.isTicking = true := by
  rw [startPreview_eq]
  exact ticking_begin prompt _

theorem ticking_startChase {d : Desk σ} (ticking : d.isTicking = true)
    (prompt : Sink.Prompt d.stage.sink) : d.startChase.isTicking = true := by
  unfold startChase
  split
  · exact ticking_begin prompt _
  · exact ticking

theorem ticking_passDelay {d : Desk σ} (ticking : d.isTicking = true)
    (prompt : Sink.Prompt d.stage.sink) : d.passDelay.isTicking = true := by
  unfold passDelay
  split
  · rename_i p hp
    split
    · exact ticking_retune (isTicking_iff.1 ticking p hp) _ prompt
    · exact ticking
  · exact ticking

theorem ticking_conclude {d : Desk σ} (ticking : d.isTicking = true)
    (prompt : Sink.Prompt d.stage.sink) (m : Move) : (d.conclude m).isTicking = true := by
  cases m with
  | enterLights | backToLights | keepEdit => exact ticking_startHighlight prompt
  | commitSelection | restage | dropEdit => exact ticking_startPreview prompt
  | startChase => exact ticking_startChase ticking prompt
  | slower | faster => exact ticking_passDelay ticking prompt
  | _ => exact ticking

theorem ticking_clearedFor {d : Desk σ} (ticking : d.isTicking = true) (m : Move) :
    (d.clearedFor m).isTicking = true := by
  unfold clearedFor
  split
  · exact ticking_of_silent (playing_stopEffect d)
  · exact ticking

variable [LawfulSink σ]

theorem ticking_prepare {d : Desk σ} (ticking : d.isTicking = true)
    (prompt : Sink.Prompt d.stage.sink) (m : Move) : (d.prepare m).isTicking = true := by
  cases m with
  | cursor turn =>
    unfold prepare pointAt
    dsimp only
    split
    · exact ticking_editHighlight ticking prompt fun h => within_leave d.controls h
    · exact ticking
  | clearSelection => exact ticking_editHighlight ticking prompt fun h => within_drop _ h
  | commitStaged =>
    unfold prepare
    dsimp only
    split <;> exact ticking
  | _ => exact ticking

theorem ticking_fulfil {d : Desk σ} (ticking : d.isTicking = true)
    (prompt : Sink.Prompt d.stage.sink) (m : Move) : (d.fulfil m).isTicking = true := by
  rw [fulfil_eq]
  exact ticking_conclude (d := (d.prepare m).choose (d.controls.after d.rig m))
    (ticking_prepare ticking prompt m) ((within_prepare d m).prompt prompt) m

theorem ticking_wait {d : Desk σ} (ticking : d.isTicking = true)
    (prompt : Sink.Prompt d.stage.sink) (span : Nat) : (d.wait span).isTicking = true := by
  unfold wait
  dsimp only
  split
  · rename_i p hp
    refine isTicking_iff.2 fun q hq => ?_
    rw [← Option.some.inj hq]
    exact Playback.waits_wait (isTicking_iff.1 ticking p hp) _ prompt
  · rename_i hp
    exact ticking_of_silent hp

/-- On a prompt sink no input is answered with an error, and none makes an effect get stuck. -/
theorem ticking_step {d : Desk σ} (ticking : d.isTicking = true)
    (prompt : Sink.Prompt d.stage.sink) (i : Input) :
    (d.step i).2 = .ok () ∧ (d.step i).1.isTicking = true := by
  have hd := dealt_step d i
  generalize d.step i = out at hd
  cases hd with
  | ignored | painted | followed => exact ⟨rfl, ticking⟩
  | waited span => exact ⟨rfl, ticking_wait ticking prompt span⟩
  | stuck e failed =>
    obtain ⟨author, hs⟩ := stopEffect_of_ticking ticking prompt
    rw [hs] at failed
    cases failed
  | moved a m =>
    have hc := (within_clearedFor d m).prompt prompt
    exact ⟨rfl, ticking_fulfil (ticking_clearedFor ticking m) hc m⟩

theorem ticking_run {d : Desk σ} (ticking : d.isTicking = true)
    (prompt : Sink.Prompt d.stage.sink) (inputs : List Input) :
    (d.run inputs).isTicking = true ∧ Sink.Prompt (d.run inputs).stage.sink :=
  run_keeps (P := fun d : Desk σ => d.isTicking = true ∧ Sink.Prompt d.stage.sink)
    (fun d i h => ⟨(ticking_step h.1 h.2 i).2, (within_step d i).prompt h.2⟩) ⟨ticking, prompt⟩
    inputs

theorem smooth_of_prompt {d : Desk σ} (ticking : d.isTicking = true)
    (prompt : Sink.Prompt d.stage.sink) (inputs : List Input) : d.Smooth inputs := by
  induction inputs generalizing d with
  | nil => trivial
  | cons i rest ih =>
    obtain ⟨ok, ticking'⟩ := ticking_step ticking prompt i
    exact ⟨ok, ih ticking' ((within_step d i).prompt prompt)⟩

end Desk

end LightingDesk
