import LightingDesk.Proofs.Schedule

/-!
# Tempo

A highlight, a preview and a pulse keep their tempo from the tick they start with, whatever the
operator does in the meantime that lets them go on: moving the cursor, selecting and deselecting
lights, and everything that has no meaning.  The phase of an effect says how often it has ticked.

    a tick moves the phase on by one, an edit leaves it            (phase_tick, phase_edited)
    after waits of T the effect has ticked 1 + T / δ times, each
    δ after the one before                                         (keeps_time)
-/

namespace LightingDesk

/-! ## Phases -/

/-- The wave after a number of steps from the top. -/
def Wave.turned : Nat → Wave
  | 0 => fresh
  | n + 1 => (turned n).advance

/-- How long the effects of a name rest between two ticks; a chase rests as long as it is told
to. -/
def EffectName.rest? : EffectName → Option Nat
  | .highlight | .rawPulse => some (Span.ofMillis 30)
  | .presetCycle => some (Span.ofMillis 400)
  | .rainbowCycle => some (Span.ofMillis 25)
  | .sceneChase => none

namespace Effect

/-- Whether the effect is as far as `n` ticks bring it. -/
def Phase (n : Nat) : Effect → Prop
  | highlight h => h.wave = Wave.turned n
  | cycle c => c.position = n % c.sequence.colors.length
  | pulse p => p.wave = Wave.turned n
  | chase c => c.position = n % c.scenes.length

theorem interval_of_rest {e : Effect} {rest : Nat} (h : e.name.rest? = some rest) :
    e.interval = rest := by
  cases e with
  | highlight | pulse => exact Option.some.inj h
  | chase => cases h
  | cycle c =>
    obtain ⟨sequence, fixtures, position, position_lt⟩ := c
    cases sequence <;> exact Option.some.inj h

theorem phase_tick {n : Nat} {e : Effect} (h : e.Phase n) (frame : Frame) :
    (e.tick frame).1.Phase (n + 1) := by
  cases e with
  | highlight | pulse => exact congrArg Wave.advance h
  | cycle c =>
    have hp : c.position = n % c.sequence.colors.length := h
    show (c.position + 1) % c.sequence.colors.length = (n + 1) % c.sequence.colors.length
    rw [hp, Nat.mod_add_mod]
  | chase c =>
    have hp : c.position = n % c.scenes.length := h
    show (c.position + 1) % c.scenes.length = (n + 1) % c.scenes.length
    rw [hp, Nat.mod_add_mod]

theorem wave_add (h : Highlight) (i : Nat) (f : Fixture) (frame : Frame) :
    (h.add i f frame).wave = h.wave := by
  unfold Highlight.add
  split <;> rfl

theorem wave_remove (h : Highlight) (i : Nat) : (h.remove i).1.wave = h.wave := by
  unfold Highlight.remove
  split <;> rfl

theorem phase_edited {σ : Type} [Sink σ] {n : Nat} {x y : Effect × Stage σ} (h : x.1.Phase n)
    (edited : Edited x y) : y.1.Phase n := by
  cases edited with
  | drop hl s i => exact (wave_remove hl i).trans h
  | light hl s i f => exact (wave_add hl.askResync i f s.frame).trans h
  | retime => exact h

end Effect

namespace Playback

variable {σ : Type} [Sink σ]

/-- A worker that still waits after a tick has waited before, and the effect has really ticked. -/
theorem tick_of_waits {p : Playback} {s : Stage σ} (h : (p.tick s).1.worker.body = .waits) :
    p.worker.body = .waits ∧
      p.tick s =
        ({ p with effect := (p.effect.tick s.frame).1 },
          s.play (.effect p.effect.name) (p.effect.tick s.frame).2) := by
  cases hw : p.worker.body with
  | waits =>
    simp only [tick, hw] at h ⊢
    by_cases hb : blocks s (p.effect.tick s.frame).2 = true
    · rw [if_pos hb] at h
      cases h
    · rw [if_neg hb]
      exact ⟨trivial, rfl⟩
  | _ =>
    simp only [tick, hw] at h
    cases h

theorem TicksAt.waits {ts : List Nat} {x y : Playback × Stage σ} (h : TicksAt ts x y)
    (waits : y.1.worker.body = .waits) : x.1.worker.body = .waits := by
  induction h with
  | rest => exact waits
  | tick t _ ih => exact (tick_of_waits (ih waits)).1
  | edit _ _ ih => exact ih waits

/-- As long as no write has got stuck, the phase counts the ticks. -/
theorem TicksAt.phase {ts : List Nat} {x y : Playback × Stage σ} (h : TicksAt ts x y)
    (waits : y.1.worker.body = .waits) {n : Nat} (hn : x.1.effect.Phase n) :
    y.1.effect.Phase (n + ts.length) := by
  induction h generalizing n with
  | rest => exact hn
  | tick t later ih =>
    rename_i p s ticks _
    have ticked := (tick_of_waits (later.waits waits)).2
    have next : (Playback.tick { p with pacer := ⟨t⟩ } s).1.effect.Phase (n + 1) := by
      rw [ticked]
      exact Effect.phase_tick hn s.frame
    rw [List.length_cons, show n + (ticks.length + 1) = n + 1 + ticks.length by omega]
    exact ih waits next
  | edit edited _ ih => exact ih waits (Effect.phase_edited hn edited)

end Playback

/-- How long some inputs wait altogether. -/
def waited : List Input → Nat
  | [] => 0
  | .wait span :: rest => span + waited rest
  | .packet _ :: rest => waited rest

/-- The moves that start an effect with a tempo of its own. -/
def Move.starts : Move → Bool
  | enterLights | backToLights | keepEdit | commitSelection | restage _ | dropEdit => true
  | _ => false

namespace Desk

variable {σ : Type} [Sink σ]

/-! ## The clock -/

theorem now_run {d : Desk σ} (reachable : d.Reachable) (inputs : List Input) :
    (d.run inputs).now = d.now + waited inputs := by
  induction inputs generalizing d with
  | nil => rfl
  | cons i rest ih =>
    refine (ih (reachable_step reachable i)).trans ?_
    cases i with
    | wait span =>
      have hn : (d.step (.wait span)).1.now = d.now + span := now_wait d span
      rw [hn, waited, Nat.add_assoc]
    | packet packet => rw [(atOnce_packet (sound_of_reachable reachable) packet).now_eq, waited]

/-! ## Steady ticking -/

/-- An effect that keeps its tempo ticks as if nothing but waiting had been done. -/
theorem timetable_moments {d : Desk σ} (h : d.Reachable) {inputs : List Input}
    (goes : d.goesOn inputs = true) {p : Playback} (hp : d.playing = some p) {rest : Nat}
    (hrest : p.effect.name.rest? = some rest) :
    timetable p.pacer.last (d.moments inputs) =
      timetable p.pacer.last
        ((List.range' (d.now + 1) (waited inputs)).map fun t => (t, rest)) := by
  induction inputs generalizing d p with
  | nil => rfl
  | cons i later ih =>
    simp only [goesOn, Bool.and_eq_true, Bool.not_eq_true'] at goes
    obtain ⟨q, hq, ticks⟩ := ticksAt_step h goes.1 hp
    have hrest' : q.effect.name.rest? = some rest := by rw [ticks.name_eq, hrest]
    have hinterval := Effect.interval_of_rest hrest'
    have after := ih (reachable_step h i) goes.2 hq hrest'
    rw [ticks.last_eq] at after
    rw [moments, timetable_append, after]
    cases i with
    | wait span =>
      have hd : (d.step (.wait span)).1.now = d.now + span := now_wait d span
      have hi : d.interval = rest := by
        rw [interval, hp]
        exact Effect.interval_of_rest hrest
      rw [waited, ← List.range'_append_1, List.map_append, timetable_append, momentsOf, hi, hd,
        Nat.add_right_comm]
    | packet packet =>
      have hd := (atOnce_packet (sound_of_reachable h) packet).now_eq
      have hi : (d.step (.packet packet)).1.interval = rest := by
        rw [interval, hq]
        exact hinterval
      have hn := (paced_of_reachable h p hp).2.2
      rw [Effect.interval_of_rest hrest] at hn
      have none_due : timetable p.pacer.last (d.momentsOf (.packet packet)) = [] := by
        rw [momentsOf, hi, timetable, if_neg (by omega), timetable]
      rw [none_due, waited, hd]
      rfl

/-! ## Starting -/

/-- What starts with a tempo of its own starts at the beginning. -/
theorem begins_conclude (d : Desk σ) {m : Move} (h : m.starts = true) :
    ∃ e, d.conclude m = d.begin e ∧ e.Phase 0 ∧ e.name.rest?.isSome = true := by
  cases m with
  | enterLights | backToLights | keepEdit =>
    unfold conclude startHighlight
    dsimp only
    split
    · exact ⟨_, rfl, Effect.wave_add _ _ _ _, rfl⟩
    · exact ⟨_, rfl, rfl, rfl⟩
  | commitSelection | restage | dropEdit =>
    unfold conclude startPreview
    dsimp only
    split
    · exact ⟨_, rfl, rfl, rfl⟩
    · exact ⟨_, rfl, rfl, rfl⟩
    · exact ⟨_, rfl, rfl, rfl⟩
  | _ => cases h

/-- An input that starts an effect does so at once. -/
theorem begins_step {d : Desk σ} {i : Input} (starts : d.asksFor Move.starts i = true)
    (ok : (d.step i).2 = .ok ()) :
    ∃ (d' : Desk σ) (e : Effect), (d.step i).1 = d'.begin e ∧ d'.now = d.now ∧ e.Phase 0 ∧
      e.name.rest?.isSome = true := by
  obtain ⟨m, hm, hstep⟩ := step_of_asksFor starts ok
  let d' := ((d.clearedFor m).prepare m).choose
    ((d.clearedFor m).controls.after (d.clearedFor m).rig m)
  have hn : d'.now = d.now :=
    (atOnce_prepare (d.clearedFor m) m).now_eq.trans (atOnce_clearedFor d m).now_eq
  obtain ⟨e, he, hphase, hrest⟩ := begins_conclude d' hm
  exact ⟨d', e, hstep.trans ((fulfil_eq _ m).trans he), hn, hphase, hrest⟩

/-- From its first tick on an effect with a tempo of its own ticks each time its rest is over. -/
theorem timetable_begin {d : Desk σ} {e : Effect} (h : (d.begin e).Reachable) {rest : Nat}
    (hrest : e.name.rest? = some rest) {inputs : List Input}
    (goes : (d.begin e).goesOn inputs = true) :
    d.now :: timetable d.now ((d.begin e).moments inputs) =
      (List.range (1 + waited inputs / rest)).map fun k => d.now + k * rest := by
  let p := (Playback.start e d.now d.stage).1
  have hp : (d.begin e).playing = some p := rfl
  have hrest' : p.effect.name.rest? = some rest := by
    rw [(Playback.ticksAt_start e d.now d.stage).name_eq]
    exact hrest
  have hpacer : p.pacer = ⟨d.now⟩ := Playback.pacer_tick _ _
  obtain ⟨-, hlast, hnow⟩ := paced_of_reachable h p hp
  have steady := timetable_moments h goes hp hrest'
  rw [Effect.interval_of_rest hrest'] at hnow
  rw [timetable_dense hlast hnow, hpacer] at steady
  rw [steady]
  exact Pacer.cons_instants d.now rest (waited inputs)

/-- From any desk that can be reached, time can be cut and counted.  While something plays, the loop
of the playback ends, and waiting is where it ends; waiting for one span and then for another is
waiting for both; and an effect that has a tempo of its own keeps it: from the tick it starts with
it ticks each time when its rest is over, as long as nothing is asked for that stops it. -/
theorem keeps_time {d : Desk σ} (h : d.Reachable) :
    (∀ p, d.playing = some p → ∀ span, ∃ q,
      d.wait span = { d with playing := some q.1, stage := q.2, now := d.now + span } ∧
      ∀ ts q', Playback.Elapses (d.now + span) ts (p, d.stage) q' ↔
        ts = p.pacer.instants p.effect.interval (d.now + span) ∧ q' = q) ∧
    (∀ a b, (d.wait a).wait b = d.wait (a + b)) ∧
    ∀ i, d.asksFor Move.starts i = true → (d.step i).2 = .ok () →
      ∃ e s rest, e.Phase 0 ∧ e.name.rest? = some rest ∧
        ∀ inputs, (d.step i).1.goesOn inputs = true →
          ∃ p, ((d.step i).1.run inputs).playing = some p ∧ p.effect.name = e.name ∧
            Playback.TicksAt
              ((List.range (1 + waited inputs / rest)).map fun k => d.now + k * rest)
              (Playback.fresh e d.now, s) (p, ((d.step i).1.run inputs).stage) ∧
            (p.worker.body = .waits → p.effect.Phase (1 + waited inputs / rest)) := by
  have paced := paced_of_reachable h
  refine ⟨?_, wait_add paced, ?_⟩
  · intro p hp span
    refine ⟨p.wait (d.now + span) d.stage, wait_of_playing hp span, ?_⟩
    intro ts q'
    exact Playback.elapses_iff (paced p hp).1
  · intro i starts ok
    have reachable := reachable_step h i
    obtain ⟨d', e, hstep, hn, hphase, hrest⟩ := begins_step starts ok
    obtain ⟨rest, hrest⟩ := Option.isSome_iff_exists.1 hrest
    rw [hstep] at reachable
    refine ⟨e, d'.stage, rest, hphase, hrest, ?_⟩
    intro inputs goes
    rw [hstep] at goes ⊢
    obtain ⟨p, hp, ticks⟩ := ticksAt_begin reachable goes
    rw [timetable_begin reachable hrest goes, hn] at ticks
    refine ⟨p, hp, ticks.name_eq, ticks, ?_⟩
    intro waits
    have := ticks.phase waits hphase
    rwa [Nat.zero_add, List.length_map, List.length_range] at this

/-- Moves the cursor, selects, waits for nothing, presses what has no meaning and clears the
selection while the highlight pulses, for 95 ms altogether. -/
def stroll : List Input :=
  [.wait 45000000, .press .right, .press .ps2, .wait 0, .press .up, .wait 30000000,
    .press .ps2Long, .wait 20000000]

theorem keeps_time_stroll :
    (recordedLamps.step (.press .b1)).1.goesOn stroll = true ∧
      ∃ p, ((recordedLamps.step (.press .b1)).1.run stroll).playing = some p ∧
        p.effect.name = .highlight ∧ p.effect.Phase 4 := by
  have reachable : recordedLamps.Reachable := ⟨_, _, _, _, _, _, [], rfl⟩
  have goes : (recordedLamps.step (.press .b1)).1.goesOn stroll = true := by decide +kernel
  obtain ⟨e, s, rest, -, hrest, all⟩ :=
    (keeps_time reachable).2.2 (.press .b1) (by decide +kernel) (by decide +kernel)
  obtain ⟨p, hp, hname, -, hphase⟩ := all stroll goes
  have shown : ((recordedLamps.step (.press .b1)).1.run stroll).playing.map
      (fun p => (p.effect.name, p.worker.body)) = some (.highlight, .waits) := by decide +kernel
  rw [hp, Option.map_some, Option.some_inj, Prod.mk.injEq] at shown
  rw [← hname, shown.1] at hrest
  cases hrest
  exact ⟨goes, p, hp, shown.1, hphase shown.2⟩

end Desk

end LightingDesk
