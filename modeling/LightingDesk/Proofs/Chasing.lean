import LightingDesk.Proofs.Excursion
import LightingDesk.Proofs.Tempo

/-!
# Chasing

A chase shows the saved scenes in order, over and over, whatever is done to its delay.  Each press
that changes the delay lets it look at the clock, so that a scene that has been held for the new
delay already makes way at once.

    ticks of a chase write its scenes in order                      (chase_of_ticksAt)
    while the operator chases, the desk goes on chasing             (chasing_step)
    a chase shows the saved scenes in order, each when the delay
    in force is over for the one before                             (chase_in_order)
-/

namespace LightingDesk

namespace Chase

/-- The scene that follows when `k` scenes have been shown. -/
def sceneAfter (scenes : List Frame) (k : Nat) : Frame := scenes.getD (k % scenes.length) .dark

/-- What a number of ticks write when `k` scenes have been shown before. -/
def plan (scenes : List Frame) (k count : Nat) : List Write :=
  (List.range count).map fun j => .whole (sceneAfter scenes (k + j))

theorem plan_succ (scenes : List Frame) (k count : Nat) :
    plan scenes k (count + 1) = .whole (sceneAfter scenes k) :: plan scenes (k + 1) count := by
  unfold plan
  rw [List.range_succ_eq_map, List.map_cons, List.map_map]
  refine congrArg _ (List.map_congr_left ?_)
  intro j _
  show Write.whole (sceneAfter scenes (k + (j + 1))) = .whole (sceneAfter scenes (k + 1 + j))
  rw [Nat.add_right_comm, Nat.add_assoc]

theorem foldl_plan (scenes : List Frame) (k count : Nat) (f : Frame) :
    (plan scenes k (count + 1)).foldl Frame.apply f = (sceneAfter scenes (k + count)).grounded := by
  unfold plan
  rw [List.range_succ, List.map_append, List.foldl_append]
  rfl

theorem scene_eq {c : Chase} {k : Nat} (h : (Effect.chase c).Phase k) :
    c.scene = sceneAfter c.scenes k := by
  have hp : c.position = k % c.scenes.length := h
  unfold scene sceneAfter
  rw [← hp, List.getD_eq_getElem?_getD, List.getElem?_eq_getElem c.position_lt]
  rfl

end Chase

/-! ## What a chase writes -/

section

variable {σ : Type} [Sink σ]

/-- How a stage goes on when some writes, each a job of its own, are played on it in one name. -/
structure Stage.Written (author : Author) (writes : List Write) (s s' : Stage σ) : Prop where
  sink_eq : s'.sink = Sink.after s.sink (writes.map (author, ·))
  reported_le : s.reported ≤ s'.reported
  frame_eq : s'.reported = s.reported → s'.frame = writes.foldl Frame.apply s.frame

namespace Stage

theorem Written.refl (author : Author) (s : Stage σ) : Written author [] s s :=
  ⟨rfl, Nat.le_refl _, fun _ => rfl⟩

theorem Written.cons {author : Author} {w : Write} {writes : List Write} {s s' s'' : Stage σ}
    (h : Written author [w] s s') (h' : Written author writes s' s'') :
    Written author (w :: writes) s s'' := by
  have le := h.reported_le
  have le' := h'.reported_le
  refine ⟨?_, Nat.le_trans le le', ?_⟩
  · rw [h'.sink_eq, h.sink_eq, ← Sink.after_append]
    rfl
  · intro quiet
    rw [h'.frame_eq (by omega), h.frame_eq (by omega)]
    rfl

theorem written_play [LawfulSink σ] (s : Stage σ) (author : Author) (w : Write) :
    Written author [w] s (s.play author [[w]]) := by
  refine ⟨?_, reported_le_play s author _, ?_⟩
  · show (Sink.performAll s.sink author [[w]]).1 = (Sink.write s.sink author w).1
    simp only [Sink.performAll, Sink.perform]
    cases hw : Sink.write s.sink author w with
    | mk sink answer => cases answer <;> rfl
  · intro quiet
    exact frame_play quiet

end Stage

namespace Playback

/-- A chase goes on with its scenes, whatever is done to its delay. -/
theorem TicksAt.scenes {ts : List Nat} {x y : Playback × Stage σ} (h : TicksAt ts x y)
    {scenes : List Frame} (hx : ∃ delay, x.1.effect.piece = .chase scenes delay) :
    ∃ delay, y.1.effect.piece = .chase scenes delay := by
  induction h with
  | rest => exact hx
  | tick t _ ih => exact ih (by rwa [piece_tick])
  | edit edited _ ih =>
    obtain ⟨delay, hx⟩ := hx
    refine ih ?_
    rename_i p _ _ _ _ _ _
    obtain ⟨effect, pacer, worker⟩ := p
    cases edited with
    | drop | light => cases hx
    | retime c s delay' => exact ⟨delay', by cases hx; rfl⟩

/-- As long as no write gets stuck, the ticks of a chase write the scenes that follow. -/
theorem TicksAt.written [LawfulSink σ] {ts : List Nat} {x y : Playback × Stage σ}
    (h : TicksAt ts x y) (waits : y.1.worker.body = .waits) {c : Chase}
    (hx : x.1.effect = .chase c) {k : Nat} (hk : (Effect.chase c).Phase k) :
    x.2.Written (.effect .sceneChase) (Chase.plan c.scenes k ts.length) y.2 := by
  induction h generalizing c k with
  | rest => exact .refl _ _
  | tick t later ih =>
    rename_i p s ticks _
    obtain ⟨effect, pacer, worker⟩ := p
    cases hx
    have ticked := (tick_of_waits (later.waits waits)).2
    have next := ih waits (c := c.tick.1) (k := k + 1) (by rw [ticked]; rfl)
      (Effect.phase_tick hk s.frame)
    rw [ticked] at next
    have first := Stage.written_play s (.effect .sceneChase) (.whole c.scene)
    rw [List.length_cons, Chase.plan_succ, ← Chase.scene_eq hk]
    exact first.cons next
  | edit edited _ ih =>
    rename_i p _ _ _ _ _ _
    obtain ⟨effect, pacer, worker⟩ := p
    cases hx
    cases edited with
    | retime _ s delay => exact ih waits (c := c.setDelay delay) rfl hk

end Playback

end

/-! ## A desk that is chasing -/

/-- An effect that plays a chase rests for its delay. -/
theorem Effect.interval_of_piece {e : Effect} {scenes : List Frame} {delay : Nat}
    (h : e.piece = .chase scenes delay) : e.interval = delay := by
  cases e with
  | chase c =>
    cases h
    rfl
  | _ => cases h

namespace Desk

variable {σ : Type} [Sink σ]

/-- A desk that plays the saved scenes. -/
structure Chasing (d : Desk σ) : Prop where
  reachable : d.Reachable
  mode : d.controls.mode = .chase
  tuned : d.Tuned

namespace Chasing

variable {d : Desk σ}

theorem piece_eq (h : d.Chasing) :
    d.piece? = some (.chase d.scenes.ring.saved d.controls.chaseDelay) := by
  have tuned := h.tuned
  unfold Tuned Controls.CallsFor at tuned
  simpa only [h.mode] using tuned

theorem interval_eq (h : d.Chasing) : d.interval = d.controls.chaseDelay := by
  obtain ⟨p, hp, he⟩ := playing_of_piece? h.piece_eq
  rw [interval, hp]
  exact Effect.interval_of_piece he

theorem minDelay_le (h : d.Chasing) : Chase.minDelay ≤ d.interval := by
  rw [h.interval_eq]
  exact (sound_of_reachable h.reachable).le_chaseDelay

end Chasing

omit [Sink σ] in
/-- Nothing but B2 ends a chase. -/
theorem goes_of_chase {d : Desk σ} (hm : d.controls.mode = .chase) {i : Input}
    (hi : i.pressed? ≠ some .b2) : d.asksFor Move.stopsEffect i = false := by
  rw [← Bool.not_eq_true]
  intro ends
  obtain ⟨a, m, pressed, asked, -, stops⟩ := asksFor_iff.1 ends
  rw [hm] at asked
  cases a <;> cases asked <;> first | exact hi pressed | cases stops

theorem chasing_step {d : Desk σ} (h : d.Chasing) {i : Input} (hi : i.pressed? ≠ some .b2) :
    (d.step i).1.Chasing := by
  have ok := ok_of_goes (goes_of_chase h.mode hi)
  have tuned := tuned_step d i ok (sound_of_reachable h.reachable) h.tuned
  refine ⟨reachable_step h.reachable i, ?_, tuned⟩
  have hd := dealt_step d i
  generalize d.step i = out at hd ok
  cases hd with
  | ignored | painted | followed => exact h.mode
  | stuck => cases ok
  | waited span => exact (congrArg Controls.mode (controls_wait d span)).trans h.mode
  | moved a m pressed asked =>
    rw [controls_fulfil, controls_clearedFor]
    rw [h.mode] at asked
    cases a <;> cases asked <;>
      first | exact absurd pressed hi | exact (Controls.mode_retime _ _).trans h.mode

/-- While B2 is not pressed the desk goes on chasing, and no interval on the way is too short. -/
theorem chasing_run {d : Desk σ} (h : d.Chasing) {rest : List Input}
    (hrest : ∀ i ∈ rest, i.pressed? ≠ some .b2) :
    d.goesOn rest = true ∧ (d.run rest).Chasing ∧
      ∀ moment ∈ d.moments rest, Chase.minDelay ≤ moment.2 := by
  induction rest generalizing d with
  | nil => exact ⟨rfl, h, nofun⟩
  | cons i rest ih =>
    have hi := hrest i (.head _)
    have next := chasing_step h hi
    obtain ⟨goes, last, later⟩ := ih next fun j hj => hrest j (.tail _ hj)
    refine ⟨?_, last, ?_⟩
    · rw [goesOn, goes_of_chase h.mode hi, goes]
      rfl
    · intro moment hm
      rcases List.mem_append.1 hm with hm | hm
      · cases i with
        | wait span =>
          obtain ⟨t, -, rfl⟩ := List.mem_map.1 hm
          exact h.minDelay_le
        | packet packet =>
          rw [List.mem_singleton.1 hm]
          exact next.minDelay_le
      · exact later moment hm

/-- With two scenes saved, B2 starts their chase at the first one. -/
theorem chase_begins {d : Desk σ} (h : d.Reachable) (idle : d.controls.mode = .idle)
    (two : 2 ≤ d.scenes.ring.saved.length) {i : Input} (pressed : i.pressed? = some .b2) :
    (d.step i).1.Chasing ∧ ∃ (d' : Desk σ) (c : Chase), (d.step i).1 = d'.begin (.chase c) ∧
      d'.now = d.now ∧ d'.stage = d.stage ∧ c.scenes = d.scenes.ring.saved ∧ c.position = 0 := by
  have hmode : d.controls.mode ∈ silentModes := by
    rw [idle]
    exact .head _
  have silent : d.piece? = none := hushed_of_reachable h hmode
  have tuned : d.Tuned := (Controls.callsFor_silence hmode).2 silent
  have asked : Move.of? d.controls.mode .b2 = some .startChase := by
    rw [idle]
    rfl
  have ok := ok_of_silent (Option.map_eq_none_iff.1 silent) i
  have asks : d.asksFor (· == .startChase) i = true :=
    asksFor_iff.2 ⟨.b2, .startChase, pressed, asked, decide_eq_true two, rfl⟩
  obtain ⟨m, hm, hstep⟩ := step_of_asksFor asks ok
  rw [eq_of_beq hm, clearedFor_of_silent silent] at hstep
  refine ⟨⟨reachable_step h i, ?_, tuned_step d i ok (sound_of_reachable h) tuned⟩, ?_⟩
  · rw [hstep, controls_fulfil]
    rfl
  · let d' := d.choose (d.controls.after d.rig .startChase)
    let c : Chase := ⟨d.scenes.ring.saved, 0, d.controls.chaseDelay, two, by omega⟩
    refine ⟨d', c, ?_, rfl, rfl, rfl, rfl⟩
    rw [hstep, fulfil_eq]
    show d'.startChase = _
    have hn : 2 ≤ d'.scenes.ring.saved.length := two
    simp only [startChase, Chase.start?, dif_pos hn]
    rfl

/-- A chase of two or more saved scenes, from the press of B2 that starts it on an idle desk until
B2 is pressed again, whatever else is done and however long is waited.  The first tick is at once,
and each other one at the first moment at which the one before is as long ago as the delay then in
force, which is always the one that is chosen; so every scene is held for 30 ms at least.  Unless a
write has got stuck, the ticks have written the saved scenes in order, over and over, and nothing
else has been written; if no write has failed, the lights show the last of them. -/
theorem chase_in_order [LawfulSink σ] {d : Desk σ} (h : d.Reachable)
    (idle : d.controls.mode = .idle) (two : 2 ≤ d.scenes.ring.saved.length) {i : Input}
    (pressed : i.pressed? = some .b2) {rest : List Input}
    (chasing : ∀ j ∈ rest, j.pressed? ≠ some .b2) {ticks : List Nat}
    (hticks : ticks = d.now :: timetable d.now ((d.step i).1.moments rest)) {d' : Desk σ}
    (hd' : d' = (d.step i).1.run rest) :
    d'.controls.mode = .chase ∧
      d'.piece? = some (.chase d.scenes.ring.saved d'.controls.chaseDelay) ∧
      d'.interval = d'.controls.chaseDelay ∧
      Chase.minDelay ≤ d'.controls.chaseDelay ∧ d'.controls.chaseDelay ≤ Chase.maxDelay ∧
      ticks.Pairwise (fun t t' => t + Chase.minDelay ≤ t') ∧
      ∃ c p, c.scenes = d.scenes.ring.saved ∧ d'.playing = some p ∧
        Playback.TicksAt ticks (Playback.fresh (.chase c) d.now, d.stage) (p, d'.stage) ∧
        (p.worker.body = .waits → p.effect.Phase ticks.length ∧
          d'.stage.sink = Sink.after d.stage.sink
            ((Chase.plan d.scenes.ring.saved 0 ticks.length).map (.effect .sceneChase, ·)) ∧
          (d'.stage.reported = d.stage.reported → d'.stage.frame =
            (Chase.sceneAfter d.scenes.ring.saved (ticks.length - 1)).grounded)) := by
  obtain ⟨started, d₁, c, hstep, hn, hs, hscenes, hposition⟩ := chase_begins h idle two pressed
  obtain ⟨goes, last, long⟩ := chasing_run started chasing
  rw [← hd'] at last
  rw [hstep] at goes long hticks hd' started
  obtain ⟨p, hp, all⟩ := ticksAt_begin started.reachable goes
  rw [hn, hs, ← hticks, ← hd'] at all
  rw [← hd'] at hp
  have sound := sound_of_reachable last.reachable
  -- the chase still plays the scenes that it began with, with the delay that is chosen
  have hpiece : d'.piece? = some (.chase d.scenes.ring.saved d'.controls.chaseDelay) := by
    obtain ⟨delay, hdelay⟩ := all.scenes ⟨c.delay, rfl⟩
    have hq : d'.piece? = some (.chase c.scenes delay) := by
      rw [piece?, hp]
      exact congrArg some hdelay
    have hlast := hq.symm.trans last.piece_eq
    rw [hq, hscenes, (Piece.chase.inj (Option.some.inj hlast)).2]
  refine ⟨last.mode, hpiece, last.interval_eq, sound.le_chaseDelay, sound.chaseDelay_le, ?_,
    c, p, hscenes, hp, all, ?_⟩
  · rw [hticks]
    exact timetable_apart d.now long
  · intro waits
    have fresh : (Effect.chase c).Phase 0 := hposition.trans (Nat.zero_mod _).symm
    have written := all.written waits rfl fresh
    have hphase := all.phase waits fresh
    rw [hscenes] at written
    rw [Nat.zero_add] at hphase
    refine ⟨hphase, written.sink_eq, ?_⟩
    intro quiet
    have hcount : ticks.length = ticks.length - 1 + 1 := by
      rw [hticks]
      rfl
    have shown := written.frame_eq quiet
    rw [hcount, Chase.foldl_plan, Nat.zero_add] at shown
    exact shown

/-- Two saved scenes on a recorder that takes every write, with a delay of 50 ms. -/
def recordedScenes : Desk Recorder :=
  start [] (.failingAt Frame.dark fun _ => none)
    (.inMemory [Frame.dark.put 1 10, Frame.dark.put 1 20]) 50000000 0 fun _ => .white

/-- Shortens the delay while a scene is held for longer than that already, waits for the next tick,
and lengthens the delay again. -/
def hurryAndRelax : List Input :=
  [.wait 45000000, .press .down, .wait 40000000, .press .right, .wait 49999999]

theorem chase_in_order_recordedScenes :
    ((recordedScenes.step (.press .b2)).1.run hurryAndRelax).controls.chaseDelay = 50000000 ∧
      ((recordedScenes.step (.press .b2)).1.run hurryAndRelax).stage.frame =
        (Frame.dark.put 1 10).grounded := by
  have reachable : recordedScenes.Reachable := ⟨_, _, _, _, _, _, [], rfl⟩
  obtain ⟨ticks, hticks⟩ : ∃ ticks, ticks = recordedScenes.now :: timetable recordedScenes.now
      ((recordedScenes.step (.press .b2)).1.moments hurryAndRelax) := ⟨_, rfl⟩
  obtain ⟨-, -, -, -, -, -, c, p, -, hp, -, all⟩ := chase_in_order reachable (by decide +kernel)
    (by decide +kernel) (by decide +kernel) (by decide +kernel) hticks rfl
  have waits : ((recordedScenes.step (.press .b2)).1.run hurryAndRelax).playing.map
      (·.worker.body) = some .waits := by decide +kernel
  rw [hp, Option.map_some, Option.some_inj] at waits
  obtain ⟨-, written, shown⟩ := all waits
  -- the history tells how many ticks there have been
  have count : ((recordedScenes.step (.press .b2)).1.run hurryAndRelax).stage.sink.history.length =
      3 := by decide +kernel
  rw [written, Recorder.history_after, List.length_append, List.length_reverse, List.length_map,
    Chase.plan, List.length_map, List.length_range] at count
  have three : ticks.length = 3 := count
  refine ⟨by decide +kernel, ?_⟩
  rw [shown (by decide +kernel), three]
  rfl

end Desk

end LightingDesk
