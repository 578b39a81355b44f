import LightingDesk.Proofs.Highlighting
import LightingDesk.Proofs.Tempo

/-!
# Highlights, in phase

Fixtures without a channel in common are highlighted, left and pulsed in any order, on a sink on
which no write fails.  From each tick to the next one all highlighted fixtures stand at one level of
the dimmer, which depends on nothing but the number of ticks so far, and each that can show a color
does show one.

    the wave goes down and up in 92 steps                         (toNat_level_turned)
    once a tick has looked for colors, all lights can be seen,
    and remain so until the next light is added                   (inPhase_perform)
    a tick shows all lights in phase                              (pulses_tick, pulses_next)
    what stays lit shows the tick until the next one              (pulses_until_tick)
-/

namespace LightingDesk

/-! ## The wave -/

namespace Wave

theorem advance_down {height : Nat} (h : low < height - stride) (h' : height ≤ high) :
    advance ⟨height, false⟩ = ⟨height - stride, false⟩ := by
  have hh : ¬ high ≤ height - stride := by unfold stride low at *; omega
  unfold advance
  simp only [Bool.false_eq_true, if_false, if_neg (Nat.not_le.2 h), if_neg hh]

theorem advance_up {height : Nat} (h : low ≤ height) (h' : height + stride < high) :
    advance ⟨height, true⟩ = ⟨height + stride, true⟩ := by
  have hl : ¬ height + stride ≤ low := by unfold stride at *; omega
  unfold advance
  simp only [if_true, if_neg hl, if_neg (Nat.not_le.2 h')]

/-- The wave goes down for 46 steps and up for as many. -/
theorem turned_eq (k : Nat) : turned k =
    if k % 92 < 46 then ⟨255 - 5 * (k % 92), false⟩ else ⟨25 + 5 * (k % 92 - 46), true⟩ := by
  induction k with
  | zero => rfl
  | succ k ih =>
    have hlt : k % 92 < 92 := Nat.mod_lt _ (by decide)
    rw [turned, ih]
    by_cases down : k % 92 < 46
    · rw [if_pos down]
      by_cases bottom : k % 92 = 45
      · rw [show (k + 1) % 92 = 46 by omega, bottom]
        rfl
      · rw [show (k + 1) % 92 = k % 92 + 1 by omega, if_pos (by omega),
          advance_down (by unfold low stride; omega) (by unfold high; omega)]
        exact congrArg (mk · false) (by unfold stride; omega)
    · rw [if_neg down]
      by_cases top : k % 92 = 91
      · rw [show (k + 1) % 92 = 0 by omega, top]
        rfl
      · rw [show (k + 1) % 92 = k % 92 + 1 by omega, if_neg (by omega),
          advance_up (by unfold low; omega) (by unfold high stride; omega)]
        exact congrArg (mk · true) (by unfold stride; omega)

/-- The wave in closed form: it turns at 25 and at 255. -/
theorem toNat_level_turned (k : Nat) :
    (turned k).level.toNat = 25 + 5 * (46 - (k % 92 : Int)).natAbs := by
  rw [level, turned_eq, Nat.toUInt8_eq, UInt8.toNat_ofNat']
  split <;> dsimp only <;> omega

end Wave

namespace Fixture

variable {f : Fixture}

/-- Whether a channel carries one of the colors that make a fixture visible. -/
def TintAt (f : Fixture) (c : Nat) : Prop := ∃ channel ∈ colorChannels, f.HasAt channel c

/-- Whether a fixture that has such channels has one of them lit. -/
def Visible (f : Fixture) (frame : Frame) : Prop :=
  (∃ c, f.TintAt c) → ∃ c, f.TintAt c ∧ frame.level c ≠ 0

theorem hasColor_iff {frame : Frame} :
    f.hasColor frame = true ↔ ∃ c, f.TintAt c ∧ frame.level c ≠ 0 := by
  unfold hasColor
  rw [List.any_eq_true]
  constructor
  · rintro ⟨i, hi, hc⟩
    obtain ⟨channel, hm, ho⟩ := List.mem_filterMap.1 hi
    exact ⟨f.address + i, ⟨channel, hm, i, ho, rfl⟩, of_decide_eq_true hc⟩
  · rintro ⟨c, ⟨channel, hm, i, ho, rfl⟩, hc⟩
    exact ⟨i, List.mem_filterMap.2 ⟨channel, hm, ho⟩, decide_eq_true hc⟩

theorem owns_of_tintAt {c : Nat} (h : f.TintAt c) : f.Owns c := by
  obtain ⟨channel, -, hc⟩ := h
  exact owns_of_hasAt hc

/-- The dimmer carries no color. -/
theorem not_dimmer_of_tintAt {c : Nat} (h : f.TintAt c) : ¬ f.HasAt "dimmer" c := by
  obtain ⟨channel, hm, hc⟩ := h
  intro hd
  rw [hasAt_unique hc hd] at hm
  exact absurd hm (by decide)

/-- A fixture with a color channel has one to be lit. -/
theorem exists_defaultColor {c : Nat} (h : f.TintAt c) :
    ∃ i, f.defaultColor = some i ∧ i < f.count ∧ f.TintAt (f.address + i) := by
  obtain ⟨channel, hm, j, hj, -⟩ := h
  have hs : f.defaultColor.isSome = true :=
    List.findSome?_isSome_iff.2 ⟨channel, hm, by rw [hj]; rfl⟩
  obtain ⟨i, hi⟩ := Option.isSome_iff_exists.1 hs
  obtain ⟨channel', hm', ho⟩ := List.exists_of_findSome?_eq_some hi
  exact ⟨i, hi, offset_lt ho, channel', hm', i, ho, rfl⟩

theorem level_setDimmer {c : Nat} (h : f.HasAt "dimmer" c) (v : UInt8) (g : Frame) :
    ((f.setDimmer v).foldl Frame.apply g).level c = v := by
  obtain ⟨i, hi, rfl⟩ := h
  simp only [setDimmer, hi]
  exact level_setChannel (offset_lt hi) v g

theorem touches_setChannel {i : Nat} (hi : i < f.count) (v : UInt8) :
    (f.setChannel i v).touches (f.address + i) := by
  rw [setChannel, if_pos hi]
  exact ⟨_, List.mem_singleton_self _, Nat.le_refl _, Nat.lt_succ_self _⟩

/-- How a highlighted fixture looks after a number of ticks: it can be seen, and its dimmer is on
the wave. -/
structure Pulses (f : Fixture) (k : Nat) (frame : Frame) : Prop where
  visible : f.Visible frame
  level_eq : ∀ c, f.HasAt "dimmer" c →
    (frame.level c).toNat = 25 + 5 * (46 - (k % 92 : Int)).natAbs

/-- A fixture looks the same where its channels have the same levels. -/
theorem visible_congr {frame g : Frame} (h : ∀ c, f.Owns c → g.level c = frame.level c)
    (visible : f.Visible frame) : f.Visible g := by
  intro tint
  obtain ⟨c, hc, hl⟩ := visible tint
  exact ⟨c, hc, by rwa [h c (owns_of_tintAt hc)]⟩

theorem pulses_congr {k : Nat} {frame g : Frame} (h : ∀ c, f.Owns c → g.level c = frame.level c)
    (pulses : f.Pulses k frame) : f.Pulses k g := by
  refine ⟨visible_congr h pulses.visible, fun c hc => ?_⟩
  rw [h c (owns_of_hasAt hc)]
  exact pulses.level_eq c hc

end Fixture

namespace Highlight

variable {σ : Type} [Sink σ]

/-! ## One tick -/

/-- The jobs of a tick that light colors. -/
def colorJobs (h : Highlight) (frame : Frame) : List Job :=
  if h.resync then h.lights.filterMap (colorJob frame) else []

/-- What lights a color lights it fully. -/
theorem level_of_colorJob {frame g : Frame} {lit : Lit} {job : Job}
    (h : colorJob frame lit = some job) {c : Nat} (hc : job.touches c) :
    (job.foldl Frame.apply g).level c = 255 := by
  unfold colorJob at h
  split at h
  · cases h
  · obtain ⟨i, -, rfl⟩ := Option.map_eq_some_iff.1 h
    obtain ⟨hi, rfl⟩ := (Fixture.staysIn_setChannel lit.fixture i 255).touches c hc
    exact Fixture.level_setChannel hi 255 g

/-- Colors are only ever lit, so what shows a color before still does after that. -/
theorem ne_zero_after_colors {h : Highlight} {frame g : Frame} {jobs : List Job}
    (hj : ∀ job ∈ jobs, job ∈ h.colorJobs frame) {c : Nat}
    (hc : g.level c ≠ 0 ∨ ∃ job ∈ jobs, job.touches c) : (g.after jobs).level c ≠ 0 := by
  induction jobs generalizing g with
  | nil => simpa [Frame.after] using hc
  | cons job rest ih =>
    rw [Frame.after_cons]
    refine ih (fun j hm => hj j (List.mem_cons_of_mem _ hm)) ?_
    by_cases ht : job.touches c
    · left
      have hm := hj job (List.mem_cons_self ..)
      unfold colorJobs at hm
      split at hm
      · obtain ⟨lit, -, hl⟩ := List.mem_filterMap.1 hm
        rw [level_of_colorJob hl ht]
        decide
      · cases hm
    · rw [level_foldl_apply g ht]
      refine hc.imp_right ?_
      rintro ⟨j, hm, htj⟩
      rcases List.mem_cons.1 hm with rfl | hm
      · exact absurd htj ht
      · exact ⟨j, hm, htj⟩

variable [LawfulSink σ] (rig : List Fixture) {x : Highlight × Stage σ}

theorem reliable_perform (reliable : Sink.Reliable x.2.sink) (call : Call) :
    (perform rig call x).2.reported = x.2.reported ∧ Sink.Reliable (perform rig call x).2.sink :=
  (within_perform rig call x).reliable reliable

/-- A tick lights colors first, and then gives all dimmers the same level. -/
theorem frame_tick (reliable : Sink.Reliable x.2.sink) :
    (perform rig .tick x).2.frame = (x.2.frame.after (x.1.colorJobs x.2.frame)).after
      ((x.1.lights.map (·.fixture)).map fun f => f.setDimmer x.1.wave.advance.level) := by
  have quiet := (reliable_perform rig reliable .tick).1
  have hplay : (perform rig .tick x).2.frame = x.2.frame.after (x.1.tick x.2.frame).2 :=
    Stage.frame_play quiet
  rw [hplay, ← Frame.after_append, List.map_map]
  rfl

/-- After a tick dimmers are on the wave, and everything else is as the colors have left it. -/
theorem level_tick (reliable : Sink.Reliable x.2.sink) (c : Nat) :
    ((∃ lit ∈ x.1.lights, lit.fixture.HasAt "dimmer" c) →
      (perform rig .tick x).2.frame.level c = x.1.wave.advance.level) ∧
    ((∀ lit ∈ x.1.lights, ¬ lit.fixture.HasAt "dimmer" c) →
      (perform rig .tick x).2.frame.level c =
        (x.2.frame.after (x.1.colorJobs x.2.frame)).level c) := by
  classical
  have hlevel := level_after_map (x.1.lights.map (·.fixture)) (P := fun f c => f.HasAt "dimmer" c)
    (v := fun _ => x.1.wave.advance.level) (fun f _ g c hc => Fixture.level_setDimmer hc _ g)
    (fun f _ c ht => (f.staysIn_setDimmer x.1.wave.advance.level).touches c ht)
    (x.2.frame.after (x.1.colorJobs x.2.frame)) c
  rw [← frame_tick rig reliable] at hlevel
  constructor
  · rintro ⟨lit, hl, hc⟩
    rw [hlevel, if_pos ⟨lit.fixture, List.mem_map_of_mem hl, hc⟩]
  · intro hn
    rw [hlevel, if_neg]
    rintro ⟨f, hf, hc⟩
    obtain ⟨lit, hl, rfl⟩ := List.mem_map.1 hf
    exact hn lit hl hc

/-! ## What every call keeps -/

/-- Where a highlight is after a number of ticks: its wave has come as far, and unless it has still
to look for colors, all its lights can be seen. -/
structure InPhase (rig : List Fixture) (k : Nat) (x : Highlight × Stage σ) : Prop where
  placed : Placed rig x.1.lights
  wave_eq : x.1.wave = Wave.turned k
  visible : x.1.resync = false → ∀ lit ∈ x.1.lights, lit.fixture.Visible x.2.frame
  reliable : Sink.Reliable x.2.sink

variable {rig} {k : Nat}

omit [Sink σ] [LawfulSink σ] in
/-- No light has its dimmer where one has a color. -/
theorem not_dimmer {lights : List Lit} (apart : rig.Pairwise Fixture.Apart)
    (placed : Placed rig lights) {lit lit' : Lit} (hl : lit ∈ lights) (hl' : lit' ∈ lights)
    {c : Nat} (hc : lit.fixture.TintAt c) : ¬ lit'.fixture.HasAt "dimmer" c := by
  intro hd
  have hf := placed.fixture_eq lit hl
  have hf' := placed.fixture_eq lit' hl'
  by_cases he : lit.index = lit'.index
  · rw [he, hf', Option.some_inj] at hf
    rw [hf] at hd
    exact Fixture.not_dimmer_of_tintAt hc hd
  · exact Fixture.apart_of_ne apart hf hf' he c (Fixture.owns_of_tintAt hc)
      (Fixture.owns_of_hasAt hd)

/-- A tick leaves every light visible, and its dimmer on the wave. -/
theorem pulses_tick (apart : rig.Pairwise Fixture.Apart) (h : InPhase rig k x) {lit : Lit}
    (hl : lit ∈ x.1.lights) : lit.fixture.Pulses (k + 1) (perform rig .tick x).2.frame := by
  refine ⟨fun tint => ?_, fun c hc => ?_⟩
  · suffices colored : ∃ c, lit.fixture.TintAt c ∧
        (x.2.frame.after (x.1.colorJobs x.2.frame)).level c ≠ 0 by
      -- dimmers leave colors alone
      obtain ⟨c, hc, hne⟩ := colored
      refine ⟨c, hc, ?_⟩
      rwa [(level_tick rig h.reliable c).2 fun lit' hl' => not_dimmer apart h.placed hl hl' hc]
    by_cases seen : lit.fixture.hasColor x.2.frame = true
    · obtain ⟨c, hc, hne⟩ := Fixture.hasColor_iff.1 seen
      exact ⟨c, hc, ne_zero_after_colors (fun _ hj => hj) (.inl hne)⟩
    · have resync : x.1.resync = true := by
        by_contra hr
        exact seen (Fixture.hasColor_iff.2 (h.visible (by simpa using hr) lit hl tint))
      obtain ⟨c, hc⟩ := tint
      obtain ⟨i, hi, hlt, htint⟩ := Fixture.exists_defaultColor hc
      have job : lit.fixture.setChannel i 255 ∈ x.1.colorJobs x.2.frame := by
        rw [colorJobs, if_pos resync]
        refine List.mem_filterMap.2 ⟨lit, hl, ?_⟩
        rw [colorJob, if_neg seen, hi]
        rfl
      exact ⟨_, htint, ne_zero_after_colors (fun _ hj => hj)
        (.inr ⟨_, job, Fixture.touches_setChannel hlt 255⟩)⟩
  · rw [(level_tick rig h.reliable c).1 ⟨lit, hl, hc⟩, h.wave_eq]
    exact Wave.toNat_level_turned (k + 1)

/-- Only a tick and its own drop change what a fixture shows. -/
theorem level_perform_of_kept (apart : rig.Pairwise Fixture.Apart) (placed : Placed rig x.1.lights)
    (reliable : Sink.Reliable x.2.sink) {call : Call} (calm : call ≠ .tick) {j : Nat} {f : Fixture}
    (hf : rig[j]? = some f) (kept : call ≠ .drop j) {c : Nat} (hc : f.Owns c) :
    (perform rig call x).2.frame.level c = x.2.frame.level c := by
  cases call with
  | light i =>
    rw [perform]
    split <;> rfl
  | resync => rfl
  | tick => exact absurd rfl calm
  | drop i =>
    have quiet := (reliable_perform rig reliable (.drop i)).1
    have hframe : (perform rig (.drop i) x).2.frame = x.2.frame.after (x.1.remove i).2 :=
      Stage.frame_play quiet
    rw [hframe]
    refine level_after x.2.frame fun job hj ht => ?_
    unfold remove at hj
    split at hj
    · rename_i lit found
      have hi : lit.index = i := by simpa using List.find?_some found
      rw [List.mem_singleton.1 hj] at ht
      have ho := (Fixture.staysIn_setValues lit.fixture lit.saved).touches c ht
      have hl := placed.fixture_eq lit (List.mem_of_find?_eq_some found)
      refine Fixture.apart_of_ne apart hl hf ?_ c ho hc
      rintro rfl
      exact kept (by rw [hi])
    · cases hj

theorem inPhase_perform (apart : rig.Pairwise Fixture.Apart) (h : InPhase rig k x) (call : Call) :
    InPhase rig (k + [call].count .tick) (perform rig call x) := by
  have placed := placed_perform h.placed call
  have reliable := (reliable_perform rig h.reliable call).2
  cases call with
  | light i =>
    refine ⟨placed, ?_, ?_, reliable⟩
    · rw [perform]
      split
      · exact (Effect.wave_add _ _ _ _).trans h.wave_eq
      · exact h.wave_eq
    · rw [perform]
      split
      · -- a light that is new has still to be looked at
        unfold add
        split
        · exact h.visible
        · intro hr
          cases hr
      · exact h.visible
  | drop i =>
    refine ⟨placed, (Effect.wave_remove x.1 i).trans h.wave_eq, fun hr lit hl => ?_, reliable⟩
    have hidx := (mem_indices_perform h.placed (.drop i) lit.index).1 (List.mem_map_of_mem hl)
    have hne : (Call.drop i) ≠ .drop lit.index := by
      rcases hidx with ⟨he, -⟩ | ⟨hne, -⟩
      · cases he
      · exact hne
    have hmem := (x.1.lights_remove_sublist i).subset hl
    have resync : x.1.resync = false := by
      rcases x.1.remove_cases i with he | ⟨lit', before, after, -, he⟩
      · exact (congrArg (·.1.resync) he).symm.trans hr
      · exact (congrArg (·.1.resync) he).symm.trans hr
    have calm : Call.drop i ≠ .tick := by simp
    exact Fixture.visible_congr (fun c hc => level_perform_of_kept apart h.placed h.reliable calm
      (h.placed.fixture_eq lit hmem) hne hc) (h.visible resync lit hmem)
  | resync =>
    refine ⟨placed, h.wave_eq, fun hr => ?_, reliable⟩
    cases hr
  | tick =>
    exact ⟨placed, congrArg Wave.advance h.wave_eq,
      fun _ lit hl => (pulses_tick apart h hl).visible, reliable⟩

theorem inPhase_performAll (apart : rig.Pairwise Fixture.Apart) (h : InPhase rig k x)
    (calls : List Call) : InPhase rig (k + calls.count .tick) (performAll rig calls x) := by
  induction calls generalizing k x with
  | nil => exact h
  | cons call rest ih =>
    have later := ih (inPhase_perform apart h call)
    rwa [Nat.add_assoc, ← List.count_append] at later

omit [LawfulSink σ] in
theorem inPhase_empty (rig : List Fixture) {s : Stage σ} (reliable : Sink.Reliable s.sink) :
    InPhase rig 0 (empty, s) where
  placed := ⟨by simp [empty], by simp [empty]⟩
  wave_eq := rfl
  visible := by simp [empty]
  reliable

/-! ## After any calls -/

/-- After any calls, a tick shows every light in the phase that the ticks so far call for. -/
theorem pulses_next (apart : rig.Pairwise Fixture.Apart) {s : Stage σ}
    (reliable : Sink.Reliable s.sink) (calls : List Call) {i : Nat} {f : Fixture}
    (hf : rig[i]? = some f) (hi : i ∈ (performAll rig calls (empty, s)).1.indices) :
    f.Pulses (calls.count .tick + 1)
      (perform rig .tick (performAll rig calls (empty, s))).2.frame := by
  have inPhase := inPhase_performAll apart (inPhase_empty rig reliable) calls
  obtain ⟨lit, hl, rfl⟩ := List.mem_map.1 hi
  have same := inPhase.placed.fixture_eq lit hl
  rw [hf, Option.some_inj] at same
  have pulses := pulses_tick apart inPhase hl
  rwa [Nat.zero_add, ← same] at pulses

/-- A tick changes nothing but dimmers and default colors of lights. -/
theorem level_tick_off (reliable : Sink.Reliable x.2.sink) {c : Nat}
    (off : ¬ (Piece.highlight x.1.lights).Reach c) :
    (perform rig .tick x).2.frame.level c = x.2.frame.level c := by
  have within := Stage.within_play x.2 (.effect .highlight)
    (Effect.staysIn_tick x.2.frame (.highlight x.1))
  exact within.level_eq (reliable_perform rig reliable .tick).1 c off

/-- A light that has seen the last tick, and has not been dropped since. -/
def HeldSinceTick (calls : List Call) (i : Nat) : Prop :=
  ∃ before after, calls = before ++ .tick :: after ∧ .tick ∉ after ∧ .drop i ∉ after ∧
    LastLit before i

theorem level_performAll_of_kept (apart : rig.Pairwise Fixture.Apart) (h : InPhase rig k x)
    {calls : List Call} (calm : .tick ∉ calls) {j : Nat} {f : Fixture} (hf : rig[j]? = some f)
    (kept : .drop j ∉ calls) {c : Nat} (hc : f.Owns c) :
    (performAll rig calls x).2.frame.level c = x.2.frame.level c := by
  induction calls generalizing k x with
  | nil => rfl
  | cons call rest ih =>
    rw [List.mem_cons, not_or] at calm kept
    have first := level_perform_of_kept apart h.placed h.reliable (Ne.symm calm.1) hf
      (Ne.symm kept.1) hc
    exact (ih (inPhase_perform apart h call) calm.2 kept.2).trans first

/-- What is lit at a tick shows it until the next one, or until it is dropped. -/
theorem pulses_until_tick (apart : rig.Pairwise Fixture.Apart) {s : Stage σ}
    (reliable : Sink.Reliable s.sink) {calls : List Call} {i : Nat} {f : Fixture}
    (hf : rig[i]? = some f) (held : HeldSinceTick calls i) :
    f.Pulses (calls.count .tick) (performAll rig calls (empty, s)).2.frame := by
  obtain ⟨before, after, rfl, calm, kept, lit⟩ := held
  have hi : i < rig.length := (List.getElem?_eq_some_iff.1 hf).1
  have pulses := pulses_next apart reliable before hf
    ((mem_indices_performAll rig s before i).2 ⟨hi, lit⟩)
  have inPhase := inPhase_performAll apart (inPhase_empty rig reliable) (before ++ [.tick])
  have count : (before ++ Call.tick :: after).count .tick = before.count .tick + 1 := by
    rw [List.count_append, List.count_cons_self, List.count_eq_zero.2 calm]
  have split : performAll rig (before ++ Call.tick :: after) (empty, s) =
      performAll rig after (performAll rig (before ++ [.tick]) (empty, s)) := by
    rw [← performAll_append, List.append_assoc]
    rfl
  rw [count, split]
  refine Fixture.pulses_congr
    (fun c hc => level_performAll_of_kept apart inPhase calm hf kept hc) ?_
  rw [performAll_append]
  exact pulses

end Highlight

end LightingDesk
