import LightingDesk.Proofs.Channels

/-!
# Pieces

The piece of an effect is what it plays, apart from how far it has come.  Ticking never changes the
piece, and touches only the channels within its reach, whenever and however often it happens.

    a playback keeps to its piece                         (piece_tick, piece_wait, piece_recheck)
    and to the reach of its piece                         (within_tick, within_wait, within_recheck)
-/

namespace LightingDesk

/-- What an effect plays, apart from how far it has come. -/
inductive Piece
  | highlight (lights : List Lit)
  | cycle (sequence : Sequence) (fixtures : List Fixture)
  | pulse (lights : List (Fixture × List UInt8))
  | chase (scenes : List Frame) (delay : Nat)

/-- The channels that a tick may touch. -/
def Piece.Reach : Piece → Nat → Prop
  | highlight lights, c =>
    ∃ lit ∈ lights, lit.fixture.HasAt "dimmer" c ∨ lit.fixture.DefaultColorAt c
  | cycle _ fixtures, c => ∃ f ∈ fixtures, f.HasAt "dimmer" c ∨ f.ColorAt c
  | pulse lights, c => ∃ light ∈ lights, light.1.HasAt "dimmer" c ∨ light.1.WhiteAt c
  | chase _ _, _ => True

/-- The levels that stopping puts back, each for a fixture. -/
def Piece.saved : Piece → List (Fixture × List UInt8)
  | highlight lights => lights.map fun lit => (lit.fixture, lit.saved)
  | pulse lights => lights
  | cycle _ _ | chase _ _ => []

namespace Effect

/-- The piece of an effect. -/
def piece : Effect → Piece
  | highlight h => .highlight h.lights
  | cycle c => .cycle c.sequence c.fixtures
  | pulse p => .pulse p.lights
  | chase c => .chase c.scenes c.delay

theorem piece_tick (frame : Frame) (e : Effect) : (e.tick frame).1.piece = e.piece := by
  cases e <;> rfl

theorem staysIn_colorJob {frame : Frame} {lit : Lit} {job : Job}
    (h : Highlight.colorJob frame lit = some job) : job.StaysIn lit.fixture.DefaultColorAt := by
  unfold Highlight.colorJob at h
  split at h
  · cases h
  · obtain ⟨i, hi, rfl⟩ := Option.map_eq_some_iff.1 h
    exact (Fixture.staysIn_setChannel lit.fixture i 255).mono fun c hc => ⟨i, hi, hc.2⟩

theorem staysIn_tick (frame : Frame) (e : Effect) :
    ∀ job ∈ (e.tick frame).2, job.StaysIn e.piece.Reach := by
  intro job hj
  cases e with
  | highlight h =>
    rcases List.mem_append.1 hj with hj | hj
    · -- colors are only looked at after a resync has been asked for
      by_cases hr : h.resync = true
      · rw [if_pos hr] at hj
        obtain ⟨lit, hl, hc⟩ := List.mem_filterMap.1 hj
        exact (staysIn_colorJob hc).mono fun c hc => ⟨lit, hl, .inr hc⟩
      · rw [if_neg hr] at hj
        cases hj
    · obtain ⟨lit, hl, rfl⟩ := List.mem_map.1 hj
      exact (Fixture.staysIn_setDimmer lit.fixture _).mono fun c hc => ⟨lit, hl, .inl hc⟩
  | cycle c =>
    obtain ⟨f, hf, hj⟩ := List.mem_flatMap.1 hj
    simp only [List.mem_cons, List.not_mem_nil, or_false] at hj
    rcases hj with rfl | rfl
    · exact (Fixture.staysIn_setColor f _).mono fun c hc => ⟨f, hf, .inr hc⟩
    · exact (Fixture.staysIn_setDimmer f _).mono fun c hc => ⟨f, hf, .inl hc⟩
  | pulse p =>
    obtain ⟨light, hl, hj⟩ := List.mem_flatMap.1 hj
    simp only [List.mem_cons, List.not_mem_nil, or_false] at hj
    rcases hj with rfl | rfl
    · exact (Fixture.staysIn_setWhite light.1 _).mono fun c hc => ⟨light, hl, .inr hc⟩
    · exact (Fixture.staysIn_setDimmer light.1 _).mono fun c hc => ⟨light, hl, .inl hc⟩
  | chase c =>
    rw [List.mem_singleton.1 hj]
    refine ⟨?_, fun _ _ => trivial⟩
    intro w hw
    rw [List.mem_singleton.1 hw]
    rfl

/-- What stopping does is to give the saved levels back. -/
theorem restore_eq (e : Effect) :
    e.restore.2 = e.piece.saved.map fun light => light.1.setValues light.2 := by
  cases e with
  | highlight h => simp [restore, Highlight.restore, piece, Piece.saved]
  | cycle c => rfl
  | pulse p => rfl
  | chase c => rfl

end Effect

namespace Playback

variable {σ : Type} [Sink σ]

theorem piece_tick (p : Playback) (s : Stage σ) :
    (p.tick s).1.effect.piece = p.effect.piece := by
  unfold tick
  split
  · dsimp only
    split
    · rfl
    · exact p.effect.piece_tick s.frame
  · rfl

theorem piece_ticks (n : Nat) (p : Playback) (s : Stage σ) :
    (ticks n p s).1.effect.piece = p.effect.piece := by
  induction n generalizing p s with
  | zero => rfl
  | succ n ih => exact (ih (p.tick s).1 (p.tick s).2).trans (piece_tick p s)

theorem piece_wait (p : Playback) (stop : Nat) (s : Stage σ) :
    (p.wait stop s).1.effect.piece = p.effect.piece :=
  piece_ticks _ { p with pacer := p.pacer.advance p.effect.interval stop } s

theorem piece_recheck (p : Playback) (now : Nat) (s : Stage σ) :
    (p.recheck now s).1.effect.piece = p.effect.piece := by
  unfold recheck
  split
  · exact piece_tick { p with pacer := ⟨now⟩ } s
  · rfl

theorem piece_start (effect : Effect) (now : Nat) (s : Stage σ) :
    (start effect now s).1.effect.piece = effect.piece :=
  piece_tick ⟨effect, ⟨now⟩, _⟩ s

variable [LawfulSink σ]

theorem within_tick (p : Playback) (s : Stage σ) : s.Within p.effect.piece.Reach (p.tick s).2 := by
  unfold tick
  split
  · dsimp only
    split
    · exact .refl _ _
    · exact Stage.within_play s _ (p.effect.staysIn_tick s.frame)
  · exact .refl _ _

theorem within_ticks (n : Nat) (p : Playback) (s : Stage σ) :
    s.Within p.effect.piece.Reach (ticks n p s).2 := by
  induction n generalizing p s with
  | zero => exact .refl _ _
  | succ n ih =>
    have h := ih (p.tick s).1 (p.tick s).2
    rw [piece_tick] at h
    exact (within_tick p s).trans h

theorem within_wait (p : Playback) (stop : Nat) (s : Stage σ) :
    s.Within p.effect.piece.Reach (p.wait stop s).2 :=
  within_ticks _ { p with pacer := p.pacer.advance p.effect.interval stop } s

theorem within_recheck (p : Playback) (now : Nat) (s : Stage σ) :
    s.Within p.effect.piece.Reach (p.recheck now s).2 := by
  unfold recheck
  split
  · exact within_tick { p with pacer := ⟨now⟩ } s
  · exact .refl _ _

theorem within_start (effect : Effect) (now : Nat) (s : Stage σ) :
    s.Within effect.piece.Reach (start effect now s).2 :=
  within_tick ⟨effect, ⟨now⟩, _⟩ s

/-- Stopping touches nothing but the fixtures whose levels are put back. -/
theorem within_stop (p : Playback) (limit : Nat) (s : Stage σ) :
    s.Within (fun c => ∃ light ∈ p.effect.piece.saved, light.1.Owns c) (p.stop limit s).1 := by
  unfold stop
  split
  · dsimp only
    split
    · exact .refl _ _
    · refine Stage.within_play s _ ?_
      intro job hj
      rw [Effect.restore_eq] at hj
      obtain ⟨light, hl, rfl⟩ := List.mem_map.1 hj
      exact (Fixture.staysIn_setValues light.1 light.2).mono fun c hc => ⟨light, hl, hc⟩
  · exact .refl _ _

end Playback

end LightingDesk
