import LightingDesk.Proofs.Confinement

/-!
# Performers

At most one effect writes at a time: the one that the mode calls for.  While time passes nobody else
writes, and in most modes nobody does.

    a playback writes in its effect's name alone                   (writtenBy_wait)
    what plays is called for, and nothing else writes meanwhile    (one_performer)
-/

namespace LightingDesk

/-! ## Writing in one name -/

namespace Sink

variable {σ : Type} [Sink σ]

/-- How a sink goes on when one effect may write to it, or none. -/
def PerformedBy : Option EffectName → σ → σ → Prop
  | some name, s, s' => WrittenBy (.effect name) s s'
  | none, s, s' => s' = s

end Sink

/-- A recorder has down every write, with its name. -/
theorem Recorder.history_after (r : Recorder) (ws : List (Author × Write)) :
    (Sink.after r ws).history = ws.reverse ++ r.history := by
  induction ws generalizing r with
  | nil => rfl
  | cons w rest ih =>
    have hw : (Sink.write r w.1 w.2).1.history = w :: r.history := by
      simp only [Sink.write]
      split
      · rfl
      · split <;> rfl
    show (Sink.after (Sink.write r w.1 w.2).1 rest).history = _
    rw [ih, hw, List.reverse_cons, List.append_assoc]
    rfl

/-- The effect that plays a piece. -/
def Piece.name : Piece → EffectName
  | highlight _ => .highlight
  | cycle .presets _ => .presetCycle
  | cycle .rainbow _ => .rainbowCycle
  | pulse _ => .rawPulse
  | chase _ _ => .sceneChase

theorem Effect.name_piece (e : Effect) : e.piece.name = e.name := by
  cases e with
  | cycle c =>
    obtain ⟨sequence, fixtures, position, position_lt⟩ := c
    cases sequence <;> rfl
  | _ => rfl

namespace Playback

variable {σ : Type} [Sink σ]

theorem writtenBy_tick (p : Playback) (s : Stage σ) :
    Sink.WrittenBy (.effect p.effect.name) s.sink (p.tick s).2.sink := by
  unfold tick
  split
  · dsimp only
    split
    · exact .refl _ _
    · exact Sink.writtenBy_performAll _ _ _
  · exact .refl _ _

theorem name_tick (p : Playback) (s : Stage σ) : (p.tick s).1.effect.name = p.effect.name := by
  rw [← Effect.name_piece, ← Effect.name_piece, piece_tick]

theorem writtenBy_ticks (n : Nat) (p : Playback) (s : Stage σ) :
    Sink.WrittenBy (.effect p.effect.name) s.sink (ticks n p s).2.sink := by
  induction n generalizing p s with
  | zero => exact .refl _ _
  | succ n ih =>
    have h := ih (p.tick s).1 (p.tick s).2
    rw [name_tick] at h
    exact (writtenBy_tick p s).trans h

theorem writtenBy_wait (p : Playback) (stop : Nat) (s : Stage σ) :
    Sink.WrittenBy (.effect p.effect.name) s.sink (p.wait stop s).2.sink :=
  writtenBy_ticks _ { p with pacer := p.pacer.advance p.effect.interval stop } s

end Playback

/-! ## The performer of a mode -/

namespace Controls

/-- The effect that plays in the mode, if there is one. -/
def performer? (c : Controls) : Option EffectName :=
  match c.mode with
  | .lights => some .highlight
  | .staging =>
    match c.staged with
    | .rawDmx => some .rawPulse
    | .rainbow => some .rainbowCycle
    | .preset => some .presetCycle
  | .chase => some .sceneChase
  | .idle | .wheel | .manual | .preset | .party | .scary => none

theorem name_of_callsFor {c : Controls} {rig : List Fixture} {saved : List Frame}
    {piece : Option Piece} (h : c.CallsFor rig saved piece) :
    piece.map Piece.name = c.performer? := by
  unfold CallsFor at h
  unfold performer?
  cases hm : c.mode with
  | lights =>
    simp only [hm] at h
    obtain ⟨lights, rfl, -⟩ := h
    rfl
  | staging =>
    simp only [hm] at h
    cases hs : c.staged with
    | rawDmx =>
      simp only [hs] at h
      obtain ⟨lights, rfl, -⟩ := h
      rfl
    | rainbow | preset =>
      simp only [hs] at h
      rw [h]
      rfl
  | _ =>
    simp only [hm] at h
    rw [h]
    rfl

end Controls

namespace Desk

variable {σ : Type} [Sink σ]

omit [Sink σ] in
/-- A highlight plays exactly while lights are being picked. -/
theorem highlight_iff_lights {d : Desk σ} (tuned : d.Tuned) :
    (∃ lights, d.piece? = some (.highlight lights)) ↔ d.controls.mode = .lights := by
  constructor
  · rintro ⟨lights, hp⟩
    have hn := Controls.name_of_callsFor tuned
    rw [hp] at hn
    unfold Controls.performer? at hn
    cases hm : d.controls.mode with
    | lights => rfl
    | staging =>
      rw [hm] at hn
      cases hs : d.controls.staged <;> rw [hs] at hn <;> cases hn
    | _ =>
      rw [hm] at hn
      cases hn
  · intro hm
    obtain ⟨lights, hp, -⟩ := (Controls.callsFor_lights hm).1 tuned
    exact ⟨lights, hp⟩

/-- While time passes, only the performer of the mode writes. -/
theorem performedBy_wait {d : Desk σ} (tuned : d.Tuned) (span : Nat) :
    Sink.PerformedBy d.controls.performer? d.stage.sink (d.wait span).stage.sink := by
  have hn : d.piece?.map Piece.name = d.controls.performer? := Controls.name_of_callsFor tuned
  rw [← hn]
  unfold wait piece?
  dsimp only
  cases d.playing with
  | none => rfl
  | some p =>
    show Sink.WrittenBy (.effect p.effect.piece.name) d.stage.sink (p.wait _ d.stage).2.sink
    rw [Effect.name_piece]
    exact Playback.writtenBy_wait p _ d.stage

/-- As long as every effect stops that is told to, what plays is exactly what the choices call for:
a highlight while lights are being picked and at no other time, at the cursor's place and the
selected ones, each once; over the working set the preview that is staged; the saved scenes with the
chosen delay in a chase; and nothing in any other mode.  So while time passes only the performer of
the mode writes, and where there is none the sink stays as it is. -/
theorem one_performer (rig : List Fixture) (sink : σ) (scenes : SceneStore) (delay stopLimit : Nat)
    (dice : Nat → Color) (inputs : List Input)
    (smooth : (start rig sink scenes delay stopLimit dice).Smooth inputs) {d : Desk σ}
    (hd : d = (start rig sink scenes delay stopLimit dice).run inputs) :
    ((∃ lights, d.piece? = some (.highlight lights)) ↔ d.controls.mode = .lights) ∧
      d.controls.CallsFor rig d.scenes.ring.saved d.piece? ∧
      ∀ span, Sink.PerformedBy d.controls.performer? d.stage.sink (d.wait span).stage.sink := by
  have tuned : d.Tuned := by
    rw [hd]
    exact tuned_run (tuned_start rig sink scenes delay stopLimit dice)
      (Controls.sound_start rig delay) smooth
  have hr : d.rig = rig := by
    rw [hd]
    exact rig_run _ inputs
  refine ⟨highlight_iff_lights tuned, ?_, performedBy_wait tuned⟩
  rw [← hr]
  exact tuned

/-- Two lamps on a recorder on which the second lamp's color cannot be set. -/
def recordedLamps : Desk Recorder :=
  start [lamp 9, lamp 13] (.failingAt Frame.dark (Recorder.reasonAt [14] "loose")) (.inMemory [])
    0 0 fun _ => .white

/-- Picks both lamps, and stays at the second. -/
def pickBoth : List Input := [.press .b1, .press .ps2, .wait 30000000, .press .right]

theorem one_performer_recordedLamps :
    (recordedLamps.run pickBoth).controls.selected = [true, false] ∧
      ∃ writes : List Write,
        ((recordedLamps.run pickBoth).wait 60000000).stage.sink.history =
          (writes.map (Author.effect .highlight, ·)).reverse ++
            (recordedLamps.run pickBoth).stage.sink.history := by
  have smooth : recordedLamps.Smooth pickBoth := by decide +kernel
  have all := one_performer _ _ _ _ _ _ pickBoth smooth (d := recordedLamps.run pickBoth) rfl
  have hp : (recordedLamps.run pickBoth).controls.performer? = some .highlight := by decide +kernel
  have waited := all.2.2 60000000
  rw [hp] at waited
  obtain ⟨writes, hw⟩ := waited
  exact ⟨by decide +kernel, writes, by rw [hw, Recorder.history_after]⟩

end Desk

end LightingDesk
