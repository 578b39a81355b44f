import LightingDesk.Proofs.Course
import LightingDesk.Proofs.Glow
import LightingDesk.Proofs.Prompt

/-!
# Picking lights, in phase

Picking lights is calling a highlight: it ticks when a tick is due, the light that the cursor leaves
is dropped unless it is selected, and the one at the cursor's new place is lit.  As long as no write
gets stuck, the lights show what these calls make of a fresh highlight, so every light that has been
held since the last tick is in phase with the time that lights have been picked for.

    an input goes on with the highlight by its calls               (goesBy_step)
    a run goes on by the calls of its inputs                       (goesBy_run)
    from the way in on, the highlight is the one its calls lead to (performs_entered)
    all lights are in phase with each other and with the time      (lights_in_phase)
-/

namespace LightingDesk

open Highlight

variable {σ : Type} [Sink σ]

/-! ## Playbacks that are called -/

namespace Playback

/-- How the playback of a highlight goes on that is called.  If it waits in the end, it has waited
before and is where the calls lead. -/
def Performs (rig : List Fixture) (calls : List Call) (x y : Playback × Stage σ) : Prop :=
  ∀ h, x.1.effect = .highlight h → ∃ h', y.1.effect = .highlight h' ∧
    (y.1.worker.body = .waits →
      x.1.worker.body = .waits ∧ (h', y.2) = performAll rig calls (h, x.2))

variable {rig : List Fixture} {p : Playback} {s : Stage σ}

theorem Performs.append {calls calls' : List Call} {x y z : Playback × Stage σ}
    (first : Performs rig calls x y) (later : Performs rig calls' y z) :
    Performs rig (calls ++ calls') x z := by
  intro h hx
  obtain ⟨h', hy, reached⟩ := first h hx
  obtain ⟨h'', hz, reached'⟩ := later h' hy
  refine ⟨h'', hz, fun waits => ?_⟩
  obtain ⟨waits', there'⟩ := reached' waits
  obtain ⟨waits'', there⟩ := reached waits'
  exact ⟨waits'', by rw [there', there, performAll_append]⟩

theorem performs_tick (rig : List Fixture) (p : Playback) (s : Stage σ) :
    Performs rig [.tick] (p, s) (p.tick s) := by
  intro h he
  obtain ⟨effect, pacer, worker⟩ := p
  obtain rfl : effect = .highlight h := he
  unfold tick
  split
  · rename_i hw
    dsimp only
    split
    · -- a tick that gets stuck leaves a worker that does not wait any more
      refine ⟨h, rfl, fun waits => ?_⟩
      cases waits
    · exact ⟨(h.tick s.frame).1, rfl, fun _ => ⟨hw, rfl⟩⟩
  · rename_i hn
    exact ⟨h, rfl, fun waits => absurd waits hn⟩

theorem performs_ticks (rig : List Fixture) (n : Nat) (p : Playback) (s : Stage σ) :
    Performs rig (List.replicate n .tick) (p, s) (ticks n p s) := by
  induction n generalizing p s with
  | zero => exact fun h he => ⟨h, he, fun waits => ⟨waits, rfl⟩⟩
  | succ n ih => exact (performs_tick rig p s).append (ih _ _)

/-- An edit that does what some calls do. -/
theorem performs_edit {h : Highlight} (he : p.effect = .highlight h) {calls : List Call}
    {edited : Highlight × Stage σ} (edits : edited = performAll rig calls (h, s)) :
    Performs rig calls (p, s) ({ p with effect := .highlight edited.1 }, edited.2) := by
  intro h' (he' : p.effect = .highlight h')
  rw [he, Effect.highlight.injEq] at he'
  subst he'
  exact ⟨edited.1, rfl, fun waits => ⟨waits, edits⟩⟩

theorem pacer_ticks (n : Nat) (p : Playback) (s : Stage σ) : (ticks n p s).1.pacer = p.pacer := by
  induction n generalizing p s with
  | zero => rfl
  | succ n ih => exact (ih _ _).trans (pacer_tick p s)

end Playback

namespace Desk

/-! ## The calls of an input -/

/-- What a move asks of the highlight while lights are picked. -/
def callsFor (d : Desk σ) : Move → List Call
  | .cursor turn =>
    (if d.controls.isSelected d.controls.cursor then [] else [.drop d.controls.cursor]) ++
      [.resync, .light (turn.around d.rig.length d.controls.cursor)]
  | .clearSelection => (d.places.filter (· ≠ d.controls.cursor)).map .drop
  | _ => []

/-- What an input asks of the highlight while lights are picked: a wait asks for the ticks that fall
due in it. -/
def callsOf (d : Desk σ) : Input → List Call
  | .wait span =>
    List.replicate (d.playing.elim 0 fun p => p.pacer.due p.effect.interval (d.now + span)) .tick
  | .packet packet => (d.asked packet).elim [] d.callsFor

/-- What some inputs ask of the highlight, one after the other. -/
def callsOfAll (d : Desk σ) : List Input → List Call
  | [] => []
  | i :: rest => d.callsOf i ++ (d.step i).1.callsOfAll rest

omit [Sink σ] in
/-- No move asks for a tick. -/
theorem count_callsFor (d : Desk σ) (m : Move) : (d.callsFor m).count .tick = 0 := by
  cases m with
  | cursor turn =>
    unfold callsFor
    dsimp only
    split <;> rfl
  | clearSelection =>
    refine List.count_eq_zero.2 fun hm => ?_
    obtain ⟨i, -, he⟩ := List.mem_map.1 hm
    cases he
  | _ => rfl

theorem performAll_leave (rig : List Fixture) (c : Controls) (x : Highlight × Stage σ) :
    performAll rig (if c.isSelected c.cursor then [] else [.drop c.cursor]) x = leave c x := by
  unfold leave
  split <;> rfl

theorem performAll_point {rig : List Fixture} (c : Controls) {i : Nat} {f : Fixture}
    (hf : rig[i]? = some f) (x : Highlight × Stage σ) :
    ((leave c x).1.askResync.add i f (leave c x).2.frame, (leave c x).2) =
      performAll rig
        ((if c.isSelected c.cursor then [] else [.drop c.cursor]) ++ [.resync, .light i]) x := by
  rw [performAll_append, performAll_leave]
  show _ = perform rig (.light i) ((leave c x).1.askResync, (leave c x).2)
  rw [perform, hf]

theorem performAll_drop (rig : List Fixture) (places : List Nat) (x : Highlight × Stage σ) :
    performAll rig (places.map .drop) x = places.foldl (fun x i => dropLight i x) x :=
  List.foldl_map

/-! ## One input -/

/-- What is in pace goes on as it is edited. -/
theorem editHighlight_of_paced {d : Desk σ} (paced : d.Paced) {p : Playback}
    (hp : d.playing = some p) {h : Highlight} (he : p.effect = .highlight h)
    (edit : Highlight × Stage σ → Highlight × Stage σ) :
    d.editHighlight edit =
      { d with
        playing := some { p with effect := .highlight (edit (h, d.stage)).1 }
        stage := (edit (h, d.stage)).2 } := by
  have hn := (paced p hp).2.2
  rw [he] at hn
  have same := Playback.recheck_of_lt
    (p := { p with effect := .highlight (edit (h, d.stage)).1 }) hn (edit (h, d.stage)).2
  simp only [editHighlight, hp, he, retune, same]

/-- How a desk goes on with its highlight by some calls. -/
structure GoesBy (d : Desk σ) (p : Playback) (calls : List Call) (d' : Desk σ) (q : Playback) :
    Prop where
  rig_eq : d'.rig = d.rig
  mode_eq : d'.controls.mode = .lights
  playing_eq : d'.playing = some q
  performs : Playback.Performs d.rig calls (p, d.stage) (q, d'.stage)
  last_eq : q.pacer.last = p.pacer.last + calls.count .tick * Span.ofMillis 30

variable {d : Desk σ} {p : Playback} {h : Highlight}

theorem goesBy_wait (hm : d.controls.mode = .lights) (hp : d.playing = some p)
    (he : p.effect = .highlight h) (span : Nat) :
    d.GoesBy p (d.callsOf (.wait span)) (d.wait span) (p.wait (d.now + span) d.stage).1 := by
  have calls : d.callsOf (.wait span) =
      List.replicate (p.pacer.due p.effect.interval (d.now + span)) .tick := by
    rw [callsOf, hp]
    rfl
  have hi : p.effect.interval = Span.ofMillis 30 := by
    rw [he]
    rfl
  refine ⟨rig_wait d span, (congrArg Controls.mode (controls_wait d span)).trans hm, ?_, ?_, ?_⟩
  · rw [wait_of_playing hp]
  · rw [calls, wait_of_playing hp]
    exact Playback.performs_ticks d.rig _ { p with pacer := p.pacer.advance _ _ } d.stage
  · rw [calls, List.count_replicate_self, Playback.wait, Playback.pacer_ticks, hi]
    rfl

/-- A move that only edits the highlight, and edits it by calls. -/
theorem goesBy_edit (paced : d.Paced) (hp : d.playing = some p) (he : p.effect = .highlight h)
    {edit : Highlight × Stage σ → Highlight × Stage σ} {m : Move}
    (edits : edit (h, d.stage) = performAll d.rig (d.callsFor m) (h, d.stage)) {c : Controls}
    (hc : c.mode = .lights) :
    ∃ q, d.GoesBy p (d.callsFor m) ((d.editHighlight edit).choose c) q := by
  rw [editHighlight_of_paced paced hp he]
  exact ⟨_, rfl, hc, rfl, Playback.performs_edit he edits,
    by rw [count_callsFor, Nat.zero_mul]; rfl⟩

/-- Without a move nothing changes. -/
theorem goesBy_same (hm : d.controls.mode = .lights) (hp : d.playing = some p) :
    d.GoesBy p [] d p :=
  ⟨rfl, hm, hp, fun h he => ⟨h, he, fun waits => ⟨waits, rfl⟩⟩, by simp⟩

theorem GoesBy.trans {d' d'' : Desk σ} {q r : Playback} {calls calls' : List Call}
    (first : d.GoesBy p calls d' q) (later : d'.GoesBy q calls' d'' r) :
    d.GoesBy p (calls ++ calls') d'' r where
  rig_eq := later.rig_eq.trans first.rig_eq
  mode_eq := later.mode_eq
  playing_eq := later.playing_eq
  performs := first.performs.append (first.rig_eq ▸ later.performs)
  last_eq := by rw [later.last_eq, first.last_eq, List.count_append, Nat.add_mul, Nat.add_assoc]

theorem goesBy_fulfil (paced : d.Paced) (sound : d.controls.Sound d.rig)
    (hm : d.controls.mode = .lights) (hp : d.playing = some p) (he : p.effect = .highlight h)
    {m : Move} (hmodes : d.controls.mode ∈ m.modes) (goes : m.stopsEffect = false) :
    ∃ q, d.GoesBy p (d.callsFor m) (d.fulfil m) q := by
  rw [hm] at hmodes
  rw [fulfil_eq]
  cases m with
  | cursor turn =>
    have hr : 0 < d.rig.length := List.length_pos_iff.2 (sound.rig_ne hm)
    have hf := List.getElem?_eq_getElem (Turn.around_lt hr d.controls.cursor turn)
    simp only [prepare, pointAt, hf]
    exact goesBy_edit paced hp he (performAll_point d.controls hf (h, d.stage)) hm
  | clearSelection =>
    have playing : d.piece? = some (.highlight h.lights) := by
      rw [piece?, hp, Option.map_some, he]
      rfl
    have places : d.places = h.indices := places_of_piece? playing
    refine goesBy_edit paced hp he ?_ hm
    rw [callsFor, places, performAll_drop]
  | toggle =>
    have same := goesBy_same hm hp
    exact ⟨p, rfl, hm, hp, same.performs, same.last_eq⟩
  | commitSelection | leaveLights => cases goes
  | _ => simp [Move.modes] at hmodes

/-- While lights are picked, an input that does not stop the highlight calls it. -/
theorem goesBy_step (reachable : d.Reachable) (hm : d.controls.mode = .lights)
    (hp : d.playing = some p) (he : p.effect = .highlight h) {i : Input}
    (goes : d.asksFor Move.stopsEffect i = false) :
    ∃ q, d.GoesBy p (d.callsOf i) (d.step i).1 q := by
  have paced := paced_of_reachable reachable
  have sound := sound_of_reachable reachable
  cases i with
  | wait span => exact ⟨_, goesBy_wait hm hp he span⟩
  | packet packet =>
    have ok := ok_of_goes goes
    have asks := asked_eq d packet
    have hd := dealt_step d (.packet packet)
    rw [callsOf]
    generalize d.step (.packet packet) = out at hd ok
    cases hd with
    | ignored idle =>
      cases ha : d.asked packet with
      | none => exact ⟨p, goesBy_same hm hp⟩
      | some m =>
        obtain ⟨a, pressed, asked⟩ := Option.bind_eq_some_iff.1 (asks.symm.trans ha)
        have refused := idle a m pressed asked
        have hmodes := Move.mode_mem_modes asked
        rw [hm] at hmodes
        cases m with
        | cursor turn => simp [allows, sound.rig_ne hm] at refused
        | clearSelection => cases refused
        | _ => exact ⟨p, goesBy_same hm hp⟩
    | stuck => cases ok
    | painted color unpressed mode =>
      rw [hm] at mode
      cases mode
    | followed magnitude unpressed mode => simp [hm] at mode
    | waited span waits => cases waits
    | moved a m pressed asked allowed =>
      have hs : m.stopsEffect = false := by
        simpa only [asksFor_eq pressed asked, allowed, Bool.true_and] using goes
      rw [asks, pressed, Option.bind_some, asked, clearedFor, if_neg (by simp [hs])]
      exact goesBy_fulfil paced sound hm hp he (Move.mode_mem_modes asked) hs

theorem goesBy_run (reachable : d.Reachable) (hm : d.controls.mode = .lights)
    (hp : d.playing = some p) (he : p.effect = .highlight h) {inputs : List Input}
    (goes : d.goesOn inputs = true) :
    ∃ q, d.GoesBy p (d.callsOfAll inputs) (d.run inputs) q := by
  induction inputs generalizing d p h with
  | nil => exact ⟨p, goesBy_same hm hp⟩
  | cons i rest ih =>
    simp only [goesOn, Bool.and_eq_true, Bool.not_eq_true'] at goes
    obtain ⟨q, first⟩ := goesBy_step reachable hm hp he goes.1
    obtain ⟨h', he', -⟩ := first.performs h he
    obtain ⟨r, later⟩ := ih (reachable_step reachable i) first.mode_eq first.playing_eq he' goes.2
    exact ⟨r, first.trans later⟩

/-! ## The clock -/

/-- The ticks among the calls are those that the clock calls for. -/
theorem count_callsOfAll (reachable : d.Reachable) (he : p.effect = .highlight h)
    (just : p.pacer.last = d.now) {inputs : List Input} {q : Playback}
    (goes : d.GoesBy p (d.callsOfAll inputs) (d.run inputs) q) :
    (d.callsOfAll inputs).count .tick = waited inputs / Span.ofMillis 30 := by
  obtain ⟨h', he', -⟩ := goes.performs h he
  have paced := paced_of_reachable (reachable_run reachable inputs) q goes.playing_eq
  have hi : q.effect.interval = Span.ofMillis 30 := by rw [he']; rfl
  rw [hi, goes.last_eq, now_run reachable, just] at paced
  refine (Nat.div_eq_of_lt_le ?_ ?_).symm
  · omega
  · rw [Nat.succ_mul]
    omega

/-! ## The way in -/

omit [Sink σ] in
theorem picks_of_after {c : Controls} {rig : List Fixture} {m : Move} (hm : c.mode ∈ m.modes)
    (before : c.mode ≠ .lights) (entered : (c.after rig m).mode = .lights) :
    m = .enterLights ∨ m = .backToLights ∨ m = .keepEdit := by
  have hh : m.highlights = true := by
    by_contra hn
    exact mode_after_ne_lights hm (by simpa using hn) entered
  cases m with
  | enterLights | backToLights | keepEdit => simp
  | cursor | toggle | clearSelection => exact absurd (List.mem_singleton.1 hm) before
  | _ => cases hh

variable [LawfulSink σ]

/-- Picking lights begins with a highlight of the cursor's fixture. -/
theorem begin_of_entered (reachable : d.Reachable) {i : Input} (before : d.controls.mode ≠ .lights)
    (entered : (d.step i).1.controls.mode = .lights) :
    ∃ (d' : Desk σ) (f : Fixture), d'.rig = d.rig ∧ d'.now = d.now ∧
      d'.rig[d'.controls.cursor]? = some f ∧ d.stage.Within (fun _ => True) d'.stage ∧
      (d.step i).1 =
        d'.begin (.highlight (Highlight.empty.add d'.controls.cursor f d'.stage.frame)) := by
  have sound := sound_step d i (sound_of_reachable reachable)
  obtain ⟨a, m, -, asked, moved⟩ := moved_of_entered before entered
  rw [moved] at entered sound ⊢
  dsimp only at entered sound ⊢
  rw [controls_fulfil, controls_clearedFor, rig_clearedFor] at entered sound
  rw [rig_fulfil, rig_clearedFor] at sound
  let d' := ((d.clearedFor m).prepare m).choose (d.controls.after d.rig m)
  have hrig : d'.rig = d.rig :=
    (congrArg Book.rig (book_prepare (d.clearedFor m) m)).trans (rig_clearedFor d m)
  have hcursor : d'.controls.cursor < d'.rig.length := by
    rw [hrig]
    exact sound.cursor_lt (sound.rig_ne entered)
  have hf := List.getElem?_eq_getElem hcursor
  have start : (d.clearedFor m).fulfil m = d'.startHighlight := by
    rw [fulfil_eq, controls_clearedFor, rig_clearedFor]
    obtain rfl | rfl | rfl := picks_of_after (Move.mode_mem_modes asked) before entered <;> rfl
  refine ⟨d', _, hrig, ?_, hf, ?_, ?_⟩
  · exact (atOnce_prepare (d.clearedFor m) m).now_eq.trans (atOnce_clearedFor d m).now_eq
  · exact (within_clearedFor d m).trans (within_prepare (d.clearedFor m) m)
  · rw [start]
    simp only [startHighlight, hf]

/-- From the way into picking lights on, the desk's highlight is the one that its calls lead to. -/
theorem performs_entered (reachable : d.Reachable) (reliable : Sink.Reliable d.stage.sink)
    {i : Input} (before : d.controls.mode ≠ .lights)
    (entered : (d.step i).1.controls.mode = .lights) {inputs : List Input}
    (goes : (d.step i).1.goesOn inputs = true) :
    let first := (d.step i).1
    let calls := .light first.controls.cursor :: .tick :: first.callsOfAll inputs
    calls.count .tick = 1 + waited inputs / Span.ofMillis 30 ∧
    ∃ (s : Stage σ) (p : Playback), Sink.Reliable s.sink ∧ (first.run inputs).playing = some p ∧
      Playback.Performs d.rig calls (Playback.fresh (.highlight empty) d.now, s)
        (p, (first.run inputs).stage) := by
  intro first calls
  obtain ⟨d', f, hrig, hnow, hf, within, start⟩ := begin_of_entered reachable before entered
  let e : Effect := .highlight (Highlight.empty.add d'.controls.cursor f d'.stage.frame)
  let q := (Playback.start e d'.now d'.stage).1
  have reachable' : first.Reachable := reachable_step reachable i
  have hq : first.playing = some q := congrArg Desk.playing start
  have hs : first.stage = (Playback.start e d'.now d'.stage).2 := congrArg Desk.stage start
  have hc : first.controls.cursor = d'.controls.cursor :=
    congrArg (·.controls.cursor) start
  have lit : Playback.Performs d.rig [.light d'.controls.cursor]
      (Playback.fresh (.highlight empty) d'.now, d'.stage) (Playback.fresh e d'.now, d'.stage) := by
    have edits : (empty.add d'.controls.cursor f d'.stage.frame, d'.stage) =
        performAll d.rig [.light d'.controls.cursor] (empty, d'.stage) := by
      rw [← hrig, performAll, List.foldl_cons, List.foldl_nil, perform, hf]
    exact Playback.performs_edit (p := Playback.fresh (.highlight empty) d'.now) rfl edits
  have began := lit.append (Playback.performs_tick d.rig (Playback.fresh e d'.now) d'.stage)
  obtain ⟨h, he, -⟩ := began empty rfl
  obtain ⟨p, run⟩ := goesBy_run reachable' entered hq he goes
  have just : q.pacer.last = first.now := by
    have hn : first.now = d'.now := (congrArg Desk.now start).trans rfl
    rw [hn]
    exact congrArg Pacer.last (Playback.pacer_tick (Playback.fresh e d'.now) d'.stage)
  have count := count_callsOfAll reachable' he just run
  refine ⟨?_, d'.stage, p, (within.reliable reliable).2, run.playing_eq, ?_⟩
  · rw [List.count_cons_of_ne (by simp), List.count_cons_self, count, Nat.add_comm]
  · have performs := run.performs
    rw [rig_step, hs] at performs
    rw [← hnow]
    show Playback.Performs d.rig (.light first.controls.cursor :: .tick :: _) _ _
    rw [hc]
    exact began.append performs

/-- Whatever a highlight is called for, its lights are in phase.  They are the fixtures that were
lit and not dropped since; after the k-th tick each of them that has a color shows one, and all
dimmers are where the wave is after k steps; the tick changes nothing but dimmers and default colors
of lights.  On a desk on which lights have been picked for some time, and no write has got stuck, k
is one more than the number of whole intervals in that time, and every light that has been held
since the last tick still shows it. -/
theorem lights_in_phase {rig : List Fixture} (apart : rig.Pairwise Fixture.Apart) :
    (∀ s : Stage σ, Sink.Reliable s.sink → ∀ calls : List Call,
      let x := performAll rig calls (empty, s)
      let y := perform rig .tick x
      (∀ i f, rig[i]? = some f → (i ∈ y.1.indices ↔ LastLit calls i) ∧
        (i ∈ y.1.indices → f.Pulses (calls.count .tick + 1) y.2.frame)) ∧
      ∀ c, (∀ i f, rig[i]? = some f → i ∈ y.1.indices →
          ¬ f.HasAt "dimmer" c ∧ ¬ f.DefaultColorAt c) →
        y.2.frame.level c = x.2.frame.level c) ∧
    ∀ d : Desk σ, d.Reachable → d.rig = rig → Sink.Reliable d.stage.sink →
      ∀ i, d.controls.mode ≠ .lights → (d.step i).1.controls.mode = .lights →
      ∀ inputs, (d.step i).1.goesOn inputs = true →
      ((d.step i).1.run inputs).isTicking = true →
        let first := (d.step i).1
        let last := first.run inputs
        let calls := .light first.controls.cursor :: .tick :: first.callsOfAll inputs
        let k := 1 + waited inputs / Span.ofMillis 30
        calls.count .tick = k ∧
        (∃ p h s, last.playing = some p ∧ p.effect = .highlight h ∧
          (h, last.stage) = performAll rig calls (empty, s)) ∧
        ∀ j f, rig[j]? = some f → HeldSinceTick calls j → f.Pulses k last.stage.frame := by
  refine ⟨fun s reliable calls => ⟨fun i f hf => ⟨?_, ?_⟩, fun c off => ?_⟩, ?_⟩
  · have hi : i < rig.length := (List.getElem?_eq_some_iff.1 hf).1
    exact (mem_indices_performAll rig s calls i).trans (and_iff_right hi)
  · exact pulses_next apart reliable calls hf
  · have inPhase := inPhase_performAll apart (inPhase_empty rig reliable) calls
    refine level_tick_off inPhase.reliable ?_
    rintro ⟨lit, hl, hc⟩
    obtain ⟨dimmer, color⟩ :=
      off lit.index lit.fixture (inPhase.placed.fixture_eq lit hl) (List.mem_map_of_mem hl)
    exact hc.elim dimmer color
  · rintro d reachable rfl reliable i before entered inputs goes ticking first last calls k
    obtain ⟨count, s, p, reliable', hp, performs⟩ :=
      performs_entered reachable reliable before entered goes
    obtain ⟨h, he, reached⟩ := performs empty rfl
    obtain ⟨-, there⟩ := reached (isTicking_iff.1 ticking p hp)
    refine ⟨count, ⟨p, h, s, hp, he, there⟩, fun j f hf held => ?_⟩
    have shown : last.stage = (performAll d.rig calls (empty, s)).2 := congrArg Prod.snd there
    rw [shown, show k = calls.count .tick from count.symm]
    exact pulses_until_tick apart reliable' hf held

/-- Selects the first lamp, and goes on to the second one between two ticks. -/
def pickSecond : List Input := [.press .ps2, .wait 40000000, .press .right, .wait 30000000]

theorem lights_in_phase_twoLamps :
    let x := performAll [lamp 1, lamp 5] [.light 0, .tick, .light 1] (empty, twoLamps.stage)
    let first := (twoLamps.step (.press .b1)).1
    let last := first.run pickSecond
    (perform [lamp 1, lamp 5] .tick x).2.frame.level 5 = 245 ∧
      first.controls.mode = .lights ∧ last.isTicking = true ∧
      (lamp 1).Pulses 3 last.stage.frame ∧ (lamp 5).Pulses 3 last.stage.frame := by
  intro x first last
  have apart : [lamp 1, lamp 5].Pairwise Fixture.Apart :=
    List.pairwise_pair.2 (Fixture.apart_of_stop_le (by decide))
  have reachable : twoLamps.Reachable := ⟨_, _, _, _, _, _, [], rfl⟩
  obtain ⟨called, picked⟩ := lights_in_phase (σ := Frame) apart
  obtain ⟨lit, second⟩ :=
    (called twoLamps.stage (reliable_frame _) [.light 0, .tick, .light 1]).1 1 (lamp 5) rfl
  have level := (second (lit.2 ⟨[.light 0, .tick], [], rfl, by simp⟩)).level_eq 5
    ⟨0, by decide, by decide⟩
  have entered : first.controls.mode = .lights := by decide +kernel
  have ticking : last.isTicking = true := by decide +kernel
  obtain ⟨-, -, pulses⟩ := picked twoLamps reachable rfl (reliable_frame _) (.press .b1)
    (by decide +kernel) entered pickSecond (by decide +kernel) ticking
  have calls : Call.light first.controls.cursor :: .tick :: first.callsOfAll pickSecond =
      [.light 0, .tick, .tick, .resync, .light 1] ++ [.tick] := by decide +kernel
  refine ⟨UInt8.toNat_inj.1 level, entered, ticking, pulses 0 (lamp 1) rfl ?_,
    pulses 1 (lamp 5) rfl ?_⟩
  · exact ⟨_, [], calls, by simp, by simp, [], _, rfl, by decide⟩
  · exact ⟨_, [], calls, by simp, by simp, [.light 0, .tick, .tick, .resync], [], rfl, by decide⟩

end Desk

end LightingDesk
