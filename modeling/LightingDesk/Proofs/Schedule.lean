import LightingDesk.Proofs.Onset
import LightingDesk.Proofs.Pacing

/-!
# The schedule of a desk

A desk is paced if what plays on it has an interval and is not overdue.  Every desk that can be
reached is paced, so time can be cut into waits anywhere.  A playing effect ticks at the moments at
which it is looked at and found due: at any instant of a wait, and once for each packet.

    nothing but waiting takes time, and everything keeps pace       (atOnce_packet, paced_step)
    waiting a and then b is waiting a + b                           (wait_add)
    an effect that goes on ticks by the timetable of the moments    (ticksAt_run)
-/

namespace LightingDesk

/-- Only a chase could be without an interval. -/
theorem Effect.interval_pos {e : Effect} (h : ∀ c, e = .chase c → 0 < c.delay) :
    0 < e.interval := by
  cases e with
  | chase c => exact h c rfl
  | cycle c =>
    unfold interval
    dsimp only
    split <;> decide
  | highlight | pulse =>
    show 0 < Span.ofMillis 30
    decide

namespace Desk

variable {σ : Type} [Sink σ]

/-! ## Pace -/

/-- Whether what is playing has an interval and is not overdue. -/
def Paced (d : Desk σ) : Prop :=
  ∀ p, d.playing = some p →
    0 < p.effect.interval ∧ p.pacer.last ≤ d.now ∧ d.now < p.pacer.last + p.effect.interval

/-- How a desk becomes another one when no time passes. -/
structure AtOnce (d d' : Desk σ) : Prop where
  now_eq : d'.now = d.now
  paced : d.Paced → d'.Paced

omit [Sink σ] in
theorem AtOnce.trans {d d' d'' : Desk σ} (h : d.AtOnce d') (h' : d'.AtOnce d'') : d.AtOnce d'' :=
  ⟨h'.now_eq.trans h.now_eq, fun paced => h'.paced (h.paced paced)⟩

omit [Sink σ] in
theorem atOnce_of_playing {d d' : Desk σ} (hn : d'.now = d.now) (hp : d'.playing = d.playing) :
    d.AtOnce d' := by
  refine ⟨hn, ?_⟩
  intro paced p h
  rw [hn]
  exact paced p (hp ▸ h)

omit [Sink σ] in
theorem paced_of_silent {d : Desk σ} (h : d.playing = none) : d.Paced := by
  intro p hp
  rw [h] at hp
  cases hp

/-- An effect that has just ticked is in pace. -/
theorem paced_of_tick {d : Desk σ} {p : Playback} {s : Stage σ} (hi : 0 < p.effect.interval)
    (hp : d.playing = some (Playback.tick { p with pacer := ⟨d.now⟩ } s).1) : d.Paced := by
  intro q hq
  rw [hp] at hq
  cases hq
  rw [Playback.interval_tick, Playback.pacer_tick]
  dsimp only
  exact ⟨hi, Nat.le_refl _, by omega⟩

theorem atOnce_begin (d : Desk σ) {e : Effect} (hi : 0 < e.interval) : d.AtOnce (d.begin e) :=
  ⟨rfl, fun _ => paced_of_tick (d := d.begin e) (p := ⟨e, ⟨d.now⟩, _⟩) hi rfl⟩

theorem atOnce_retune {d : Desk σ} {p : Playback} (hp : d.playing = some p) {e : Effect}
    (hi : 0 < e.interval) (s : Stage σ) : d.AtOnce (d.retune p e s) := by
  refine ⟨rfl, ?_⟩
  intro paced
  let edited : Playback := { p with effect := e }
  by_cases hd : edited.pacer.last + edited.effect.interval ≤ d.now
  · have hr := Playback.recheck_of_le hd s
    refine paced_of_tick (d := d.retune p e s) (p := edited) (s := s) hi ?_
    show some (edited.recheck d.now s).1 = _
    rw [hr]
    rfl
  · intro q hq
    have hr := Playback.recheck_of_lt (Nat.lt_of_not_le hd) s
    have he : some (edited.recheck d.now s).1 = some q := hq
    rw [hr] at he
    cases he
    exact ⟨hi, (paced p hp).2.1, Nat.lt_of_not_le hd⟩

theorem atOnce_editHighlight (d : Desk σ) (edit : Highlight × Stage σ → Highlight × Stage σ) :
    d.AtOnce (d.editHighlight edit) := by
  unfold editHighlight
  split
  · rename_i p hp
    split
    · exact atOnce_retune hp (e := .highlight _) (Effect.interval_pos nofun) _
    · exact atOnce_of_playing rfl rfl
  · exact atOnce_of_playing rfl rfl

theorem atOnce_pointAt (d : Desk σ) (i : Nat) : d.AtOnce (d.pointAt i) := by
  unfold pointAt
  split
  · exact atOnce_editHighlight d _
  · exact atOnce_of_playing rfl rfl

theorem atOnce_pointOnly (d : Desk σ) : d.AtOnce d.pointOnly := atOnce_editHighlight d _

theorem atOnce_passDelay {d : Desk σ} (hd : 0 < d.controls.chaseDelay) : d.AtOnce d.passDelay := by
  unfold passDelay
  split
  · rename_i p hp
    split
    · refine atOnce_retune hp (Effect.interval_pos ?_) _
      intro c hc
      cases hc
      exact hd
    · exact atOnce_of_playing rfl rfl
  · exact atOnce_of_playing rfl rfl

theorem atOnce_startHighlight (d : Desk σ) : d.AtOnce d.startHighlight := by
  unfold startHighlight
  dsimp only
  split <;> exact atOnce_begin d (Effect.interval_pos nofun)

theorem atOnce_startPreview (d : Desk σ) : d.AtOnce d.startPreview := by
  unfold startPreview
  split <;> exact atOnce_begin d (Effect.interval_pos nofun)

theorem atOnce_startChase {d : Desk σ} (hd : 0 < d.controls.chaseDelay) :
    d.AtOnce d.startChase := by
  by_cases hn : 2 ≤ d.scenes.ring.saved.length
  · simp only [startChase, Chase.start?, dif_pos hn]
    refine atOnce_begin d (Effect.interval_pos ?_)
    intro c hc
    cases hc
    exact hd
  · simp only [startChase, Chase.start?, dif_neg hn]
    exact atOnce_of_playing rfl rfl

theorem atOnce_stopEffect (d : Desk σ) : d.AtOnce d.stopEffect.1 := by
  refine ⟨?_, fun _ => paced_of_silent (playing_stopEffect d)⟩
  unfold stopEffect
  split <;> rfl

theorem atOnce_clearedFor (d : Desk σ) (m : Move) : d.AtOnce (d.clearedFor m) := by
  unfold clearedFor
  split
  · exact atOnce_stopEffect d
  · exact atOnce_of_playing rfl rfl

theorem atOnce_prepare (d : Desk σ) (m : Move) : d.AtOnce (d.prepare m) := by
  cases m with
  | cursor turn => exact atOnce_pointAt d _
  | clearSelection => exact atOnce_pointOnly d
  | commitStaged =>
    unfold prepare
    dsimp only
    split <;> exact atOnce_of_playing rfl rfl
  | _ => exact atOnce_of_playing rfl rfl

theorem atOnce_conclude {d : Desk σ} (hd : 0 < d.controls.chaseDelay) (m : Move) :
    d.AtOnce (d.conclude m) := by
  cases m with
  | enterLights | backToLights | keepEdit => exact atOnce_startHighlight d
  | commitSelection | restage | dropEdit => exact atOnce_startPreview d
  | startChase => exact atOnce_startChase hd
  | slower | faster => exact atOnce_passDelay hd
  | _ => exact atOnce_of_playing rfl rfl

theorem atOnce_fulfil {d : Desk σ} {m : Move} (hd : 0 < (d.fulfil m).controls.chaseDelay) :
    d.AtOnce (d.fulfil m) := by
  rw [controls_fulfil] at hd
  rw [fulfil_eq]
  have prepared := atOnce_prepare d m
  have chosen : (d.prepare m).AtOnce ((d.prepare m).choose (d.controls.after d.rig m)) :=
    atOnce_of_playing rfl rfl
  exact (prepared.trans chosen).trans (atOnce_conclude hd m)

theorem chaseDelay_pos {rig : List Fixture} {c : Controls} (sound : c.Sound rig) :
    0 < c.chaseDelay := Nat.lt_of_lt_of_le (by decide) sound.le_chaseDelay

/-- No packet takes time, and each keeps pace. -/
theorem atOnce_packet {d : Desk σ} (sound : d.controls.Sound d.rig) (packet : Packet) :
    d.AtOnce (d.step (.packet packet)).1 := by
  have sound' := sound_step d (.packet packet) sound
  have h := dealt_step d (.packet packet)
  generalize d.step (.packet packet) = out at h sound'
  cases h with
  | ignored | painted | followed => exact atOnce_of_playing rfl rfl
  | stuck => exact atOnce_stopEffect d
  | waited span waits => cases waits
  | moved a m =>
    exact (atOnce_clearedFor d m).trans (atOnce_fulfil (chaseDelay_pos sound'))

/-! ## Waiting -/

theorem now_wait (d : Desk σ) (span : Nat) : (d.wait span).now = d.now + span := by
  unfold wait
  dsimp only
  split <;> rfl

theorem wait_of_playing {d : Desk σ} {p : Playback} (hp : d.playing = some p) (span : Nat) :
    d.wait span =
      { d with
        playing := some (p.wait (d.now + span) d.stage).1
        stage := (p.wait (d.now + span) d.stage).2
        now := d.now + span } := by
  simp only [wait, hp]

theorem wait_of_silent {d : Desk σ} (hp : d.playing = none) (span : Nat) :
    d.wait span = { d with now := d.now + span } := by
  simp only [wait, hp]

theorem paced_wait {d : Desk σ} (paced : d.Paced) (span : Nat) : (d.wait span).Paced := by
  cases hp : d.playing with
  | none =>
    rw [wait_of_silent hp]
    exact paced_of_silent hp
  | some p =>
    obtain ⟨hi, hlast, -⟩ := paced p hp
    have loop := Playback.elapses_wait (d.now + span) p d.stage hi
    rw [wait_of_playing hp]
    intro q hq
    cases hq
    refine ⟨?_, loop.last_le ?_, loop.asleep⟩
    · rw [loop.interval_eq]
      exact hi
    · dsimp only
      omega

/-- Waiting can be cut anywhere. -/
theorem wait_add {d : Desk σ} (paced : d.Paced) (a b : Nat) :
    (d.wait a).wait b = d.wait (a + b) := by
  cases hp : d.playing with
  | none =>
    have still : ({ d with now := d.now + a } : Desk σ).playing = none := hp
    rw [wait_of_silent hp, wait_of_silent hp, wait_of_silent still]
    dsimp only
    rw [Nat.add_assoc]
  | some p =>
    have parts := Playback.wait_wait (paced p hp).1 (show d.now + a ≤ d.now + (a + b) by omega)
      d.stage
    rw [wait_of_playing hp, wait_of_playing hp, wait_of_playing rfl]
    dsimp only
    rw [Nat.add_assoc, parts]

theorem paced_step {d : Desk σ} (sound : d.controls.Sound d.rig) (paced : d.Paced) (i : Input) :
    (d.step i).1.Paced := by
  cases i with
  | wait span => exact paced_wait paced span
  | packet packet => exact (atOnce_packet sound packet).paced paced

theorem paced_of_reachable {d : Desk σ} (h : d.Reachable) : d.Paced := by
  obtain ⟨rig, sink, scenes, delay, stopLimit, dice, inputs, rfl⟩ := h
  have first : (start rig sink scenes delay stopLimit dice).Paced := paced_of_silent rfl
  have both := And.intro (Controls.sound_start rig delay) first
  refine (run_keeps (P := fun d : Desk σ => d.controls.Sound d.rig ∧ d.Paced) ?_ both inputs).2
  intro d' i ⟨sound, paced⟩
  exact ⟨sound_step d' i sound, paced_step sound paced i⟩

theorem reachable_step {d : Desk σ} (h : d.Reachable) (i : Input) : (d.step i).1.Reachable := by
  obtain ⟨rig, sink, scenes, delay, stopLimit, dice, inputs, rfl⟩ := h
  exact ⟨rig, sink, scenes, delay, stopLimit, dice, inputs ++ [i], (run_append _ inputs [i]).symm⟩

theorem reachable_run {d : Desk σ} (h : d.Reachable) (inputs : List Input) :
    (d.run inputs).Reachable :=
  run_keeps (P := Reachable) (fun _ i reachable => reachable_step reachable i) h inputs

/-! ## Going on -/

/-- Whether an input asks for a move of some kind that the desk allows. -/
def asksFor (d : Desk σ) (kind : Move → Bool) (i : Input) : Bool :=
  match i.pressed?.bind (Move.of? d.controls.mode) with
  | some m => d.allows m && kind m
  | none => false

/-- Whether what is playing goes on through some inputs: none asks for a move that stops it. -/
def goesOn (d : Desk σ) : List Input → Bool
  | [] => true
  | i :: rest => !d.asksFor Move.stopsEffect i && (d.step i).1.goesOn rest

omit [Sink σ] in
theorem asksFor_eq {d : Desk σ} {i : Input} {a : Action} {m : Move} (pressed : i.pressed? = some a)
    (asked : Move.of? d.controls.mode a = some m) (kind : Move → Bool) :
    d.asksFor kind i = (d.allows m && kind m) := by
  have hb : i.pressed?.bind (Move.of? d.controls.mode) = some m := by
    rw [pressed, Option.bind_some, asked]
  simp only [asksFor, hb]

omit [Sink σ] in
theorem asksFor_iff {d : Desk σ} {kind : Move → Bool} {i : Input} :
    d.asksFor kind i = true ↔ ∃ a m, i.pressed? = some a ∧
      Move.of? d.controls.mode a = some m ∧ d.allows m = true ∧ kind m = true := by
  constructor
  · intro h
    cases hb : i.pressed?.bind (Move.of? d.controls.mode) with
    | none => simp [asksFor, hb] at h
    | some m =>
      obtain ⟨a, pressed, asked⟩ := Option.bind_eq_some_iff.1 hb
      rw [asksFor_eq pressed asked, Bool.and_eq_true] at h
      exact ⟨a, m, pressed, asked, h⟩
  · rintro ⟨a, m, pressed, asked, h⟩
    rw [asksFor_eq pressed asked, Bool.and_eq_true]
    exact h

/-- Only an input that ends what is playing can fail. -/
theorem ok_of_goes {d : Desk σ} {i : Input} (h : d.asksFor Move.stopsEffect i = false) :
    (d.step i).2 = .ok () := by
  cases i with
  | wait span => rfl
  | packet p =>
    rw [asksFor, ← asked_eq] at h
    cases ha : d.asked p with
    | some m =>
      rw [ha] at h
      rw [step_of_asked ha, carryOut]
      by_cases allowed : d.allows m = true
      · have hm : m.stopsEffect = false := by simpa only [allowed, Bool.true_and] using h
        simp [allowed, hm]
      · simp [allowed]
    | none =>
      match p, ha with
      | ⟨.data, mode, .userAction code⟩, ha =>
        simp only [step, handle, ha]
        rfl
      | ⟨.data, mode, .joystick x y⟩, _ | ⟨.data, mode, .gyro x y z⟩, _ =>
        simp only [step, handle]
        split <;> rfl
      | ⟨.data, mode, .status s⟩, _ | ⟨.data, mode, .empty⟩, _ | ⟨.poll, mode, payload⟩, _
      | ⟨.pollReply, mode, payload⟩, _ => rfl

/-- While nothing is playing no input fails. -/
theorem ok_of_silent {d : Desk σ} (h : d.playing = none) (i : Input) : (d.step i).2 = .ok () := by
  have hd := dealt_step d i
  generalize d.step i = out at hd
  cases hd with
  | stuck e failed => simp [stopEffect, h] at failed
  | _ => rfl

/-- A move that has been asked for is carried out, unless what is playing does not stop. -/
theorem step_of_asksFor {d : Desk σ} {kind : Move → Bool} {i : Input}
    (h : d.asksFor kind i = true) (ok : (d.step i).2 = .ok ()) :
    ∃ m, kind m = true ∧ (d.step i).1 = (d.clearedFor m).fulfil m := by
  obtain ⟨a, m, pressed, asked, allowed, hk⟩ := asksFor_iff.1 h
  have hd := dealt_step d i
  generalize d.step i = out at hd ok
  cases hd with
  | ignored idle => simp [idle a m pressed asked] at allowed
  | stuck => cases ok
  | painted color unpressed | followed magnitude unpressed =>
    rw [pressed] at unpressed
    cases unpressed
  | waited span waits =>
    rw [waits] at pressed
    cases pressed
  | moved a' m' pressed' asked' =>
    rw [pressed] at pressed'
    cases pressed'
    rw [asked] at asked'
    cases asked'
    exact ⟨m, hk, rfl⟩

/-- How what is playing goes on when it is looked at once, after it may have been edited. -/
def Looks (d d' : Desk σ) : Prop :=
  ∀ p, d.playing = some p → ∃ q, d'.playing = some q ∧
    Playback.TicksAt (timetable p.pacer.last [(d.now, q.effect.interval)]) (p, d.stage)
      (q, d'.stage)

/-- What is in pace and is left alone does not tick. -/
theorem looks_of_same {d d' : Desk σ} (paced : d.Paced) (hp : d'.playing = d.playing)
    (hs : d'.stage = d.stage) : d.Looks d' := by
  intro p h
  have hn := (paced p h).2.2
  refine ⟨p, hp.trans h, ?_⟩
  rw [timetable, if_neg (by omega), hs]
  exact .rest _

theorem looks_retune {d : Desk σ} {p : Playback} (hp : d.playing = some p) {e : Effect}
    {s : Stage σ} (edits : Playback.TicksAt [] (p, d.stage) ({ p with effect := e }, s)) :
    d.Looks (d.retune p e s) := by
  intro q hq
  rw [hp] at hq
  cases hq
  refine ⟨(Playback.recheck { p with effect := e } d.now s).1, rfl, ?_⟩
  rw [Playback.interval_recheck]
  exact edits.append (Playback.ticksAt_recheck { p with effect := e } d.now s)

/-- Whether a change of a highlight is made up of edits. -/
def Edits (edit : Highlight × Stage σ → Highlight × Stage σ) : Prop :=
  ∀ (p : Playback) (h : Highlight) (s : Stage σ), p.effect = .highlight h →
    Playback.TicksAt [] (p, s) ({ p with effect := .highlight (edit (h, s)).1 }, (edit (h, s)).2)

theorem Edits.trans {edit edit' : Highlight × Stage σ → Highlight × Stage σ} (h : Edits edit)
    (h' : Edits edit') : Edits fun x => edit' (edit x) := by
  intro p hl s hp
  exact (h p hl s hp).append (h' { p with effect := .highlight (edit (hl, s)).1 } _ _ rfl)

theorem edits_id : Edits (σ := σ) fun h => h := by
  intro p h s hp
  obtain ⟨effect, pacer, worker⟩ := p
  cases hp
  exact .rest _

theorem edits_dropLight (i : Nat) : Edits (σ := σ) (dropLight i) := by
  intro p h s hp
  refine .edit ?_ (.rest _)
  rw [hp]
  exact .drop h s i

theorem edits_drop (places : List Nat) :
    Edits (σ := σ) fun h => places.foldl (fun h i => dropLight i h) h := by
  induction places with
  | nil => exact edits_id
  | cons i rest ih => exact (edits_dropLight i).trans ih

theorem edits_leave (c : Controls) : Edits (σ := σ) (leave c) := by
  by_cases hs : c.isSelected c.cursor = true
  · have hl : leave (σ := σ) c = fun h => h := by
      funext h
      simp only [leave, hs, if_true]
    rw [hl]
    exact edits_id
  · have hl : leave (σ := σ) c = dropLight c.cursor := by
      funext h
      simp only [leave, hs]
      rfl
    rw [hl]
    exact edits_dropLight c.cursor

theorem edits_light (i : Nat) (f : Fixture) :
    Edits (σ := σ) fun h => (h.1.askResync.add i f h.2.frame, h.2) := by
  intro p h s hp
  refine .edit ?_ (.rest _)
  rw [hp]
  exact .light h s i f

theorem looks_editHighlight {d : Desk σ} (paced : d.Paced)
    {edit : Highlight × Stage σ → Highlight × Stage σ} (h : Edits edit) :
    d.Looks (d.editHighlight edit) := by
  intro p hp
  cases he : p.effect with
  | highlight hl =>
    have hr : d.editHighlight edit =
        d.retune p (.highlight (edit (hl, d.stage)).1) (edit (hl, d.stage)).2 := by
      simp only [editHighlight, hp, he]
    rw [hr]
    exact looks_retune hp (h p hl d.stage he) p hp
  | _ =>
    have hr : d.editHighlight edit = d := by simp only [editHighlight, hp, he]
    rw [hr]
    exact looks_of_same paced rfl rfl p hp

theorem looks_pointAt {d : Desk σ} (paced : d.Paced) (i : Nat) : d.Looks (d.pointAt i) := by
  unfold pointAt
  cases d.rig[i]? with
  | none => exact looks_of_same paced rfl rfl
  | some f => exact looks_editHighlight paced ((edits_leave d.controls).trans (edits_light i f))

theorem looks_passDelay {d : Desk σ} (paced : d.Paced) (c : Controls) :
    d.Looks (d.choose c).passDelay := by
  intro p hp
  cases he : p.effect with
  | chase chase =>
    have hr : (d.choose c).passDelay =
        (d.choose c).retune p (.chase (chase.setDelay c.chaseDelay)) d.stage := by
      simp only [passDelay, choose, hp, he]
    rw [hr]
    refine looks_retune (d := d.choose c) hp (.edit ?_ (.rest _)) p hp
    rw [he]
    exact .retime chase d.stage c.chaseDelay
  | _ =>
    have hr : (d.choose c).passDelay = d.choose c := by simp only [passDelay, choose, hp, he]
    rw [hr]
    exact looks_of_same paced rfl rfl p hp

/-- A move that goes on with what is playing looks at it once. -/
theorem looks_fulfil {d : Desk σ} (paced : d.Paced) {m : Move} (plays : m.plays = true)
    (goes : m.stopsEffect = false) : d.Looks (d.fulfil m) := by
  rw [fulfil_eq]
  cases m with
  | cursor turn => exact looks_pointAt paced _
  | toggle => exact looks_of_same paced rfl rfl
  | clearSelection => exact looks_editHighlight paced fun p h s hp => edits_drop _ p h s hp
  | slower | faster => exact looks_passDelay paced _
  | enterLights | backToLights | keepEdit | commitSelection | restage | dropEdit | startChase =>
    cases goes
  | _ => cases plays

/-- A packet that does not end what is playing looks at it once. -/
theorem looks_packet {d : Desk σ} (h : d.Reachable) {packet : Packet}
    (goes : d.asksFor Move.stopsEffect (.packet packet) = false) :
    d.Looks (d.step (.packet packet)).1 := by
  intro p hp
  have paced := paced_of_reachable h
  have hn : d.controls.mode ∉ silentModes := by
    intro hm
    have := hushed_of_reachable h hm
    rw [piece?, hp] at this
    cases this
  have ok := ok_of_goes goes
  have hd := dealt_step d (.packet packet)
  generalize d.step (.packet packet) = out at hd ok
  cases hd with
  | ignored => exact looks_of_same paced rfl rfl p hp
  | stuck => cases ok
  | painted color unpressed mode => exact absurd (by rw [mode]; decide) hn
  | followed magnitude unpressed mode =>
    exact absurd (by rcases mode with mode | mode <;> rw [mode] <;> decide) hn
  | waited span waits => cases waits
  | moved a m pressed asked allowed =>
    have hs : m.stopsEffect = false := by
      simpa only [asksFor_eq pressed asked, allowed, Bool.true_and] using goes
    have hm := Move.mode_mem_modes asked
    have hplays : m.plays = true := by
      by_cases hq : m.plays = true
      · exact hq
      · have := (Controls.silent_before hm (by simpa using hq)).resolve_left (by simp [hs])
        exact absurd this hn
    rw [clearedFor, if_neg (by simp [hs])]
    exact looks_fulfil paced hplays hs p hp

/-! ## The timetable of a run -/

/-- The interval in force: that of the effect that is playing. -/
def interval (d : Desk σ) : Nat := d.playing.elim 0 (·.effect.interval)

/-- The moments at which an input lets what is playing be looked at, and the interval then in force:
every instant of a wait after its beginning, and a packet once, when it has been handled. -/
def momentsOf (d : Desk σ) : Input → List (Nat × Nat)
  | .wait span => (List.range' (d.now + 1) span).map fun t => (t, d.interval)
  | .packet packet => [(d.now, (d.step (.packet packet)).1.interval)]

/-- The moments of a run. -/
def moments (d : Desk σ) : List Input → List (Nat × Nat)
  | [] => []
  | i :: rest => d.momentsOf i ++ (d.step i).1.moments rest

/-- What is playing ticks whenever it is looked at and found due. -/
theorem ticksAt_step {d : Desk σ} (h : d.Reachable) {i : Input}
    (goes : d.asksFor Move.stopsEffect i = false) {p : Playback} (hp : d.playing = some p) :
    ∃ q, (d.step i).1.playing = some q ∧
      Playback.TicksAt (timetable p.pacer.last (d.momentsOf i)) (p, d.stage)
        (q, (d.step i).1.stage) := by
  cases i with
  | wait span =>
    obtain ⟨hi, hlast, hnow⟩ := paced_of_reachable h p hp
    have hd : (d.step (.wait span)).1 = d.wait span := rfl
    have hinterval : d.interval = p.effect.interval := by rw [interval, hp]; rfl
    rw [hd, momentsOf, hinterval, timetable_dense hlast hnow, wait_of_playing hp]
    exact ⟨_, rfl, .of_elapses (Playback.elapses_wait (d.now + span) p d.stage hi)⟩
  | packet packet =>
    obtain ⟨q, hq, ticks⟩ := looks_packet h goes p hp
    have hinterval : (d.step (.packet packet)).1.interval = q.effect.interval := by
      rw [interval, hq]
      rfl
    rw [momentsOf, hinterval]
    exact ⟨q, hq, ticks⟩

/-- What is playing goes on by the timetable of the moments of a run. -/
theorem ticksAt_run {d : Desk σ} (h : d.Reachable) {inputs : List Input}
    (goes : d.goesOn inputs = true) {p : Playback} (hp : d.playing = some p) :
    ∃ q, (d.run inputs).playing = some q ∧
      Playback.TicksAt (timetable p.pacer.last (d.moments inputs)) (p, d.stage)
        (q, (d.run inputs).stage) := by
  induction inputs generalizing d p with
  | nil => exact ⟨p, hp, .rest _⟩
  | cons i rest ih =>
    simp only [goesOn, Bool.and_eq_true, Bool.not_eq_true'] at goes
    obtain ⟨q, hq, first⟩ := ticksAt_step h goes.1 hp
    obtain ⟨r, hr, later⟩ := ih (reachable_step h i) goes.2 hq
    refine ⟨r, hr, ?_⟩
    rw [first.last_eq] at later
    rw [moments, timetable_append]
    exact first.append later

/-- What has been started ticks at once, and from then on by the timetable of the moments of a
run. -/
theorem ticksAt_begin {d : Desk σ} {e : Effect} (h : (d.begin e).Reachable) {inputs : List Input}
    (goes : (d.begin e).goesOn inputs = true) :
    ∃ q, ((d.begin e).run inputs).playing = some q ∧
      Playback.TicksAt (d.now :: timetable d.now ((d.begin e).moments inputs))
        (Playback.fresh e d.now, d.stage) (q, ((d.begin e).run inputs).stage) := by
  have first := Playback.ticksAt_start e d.now d.stage
  have hpacer : (Playback.start e d.now d.stage).1.pacer = ⟨d.now⟩ := Playback.pacer_tick _ _
  obtain ⟨q, hq, later⟩ := ticksAt_run h goes (p := (Playback.start e d.now d.stage).1) rfl
  rw [hpacer] at later
  exact ⟨q, hq, first.append later⟩

end Desk

end LightingDesk
