import LightingDesk.Proofs.Confinement

/-!
# Mishaps

An effect may hang or break down, and it may be impossible to start one.  A move is told here act by
act, in the order in which the desk goes about it: one move captures the lights before it stops what
is playing, and most stop it again before they start something else.  Where something is playing, an
act that fails is always the first one, so that nothing has been done yet when a stop fails.

    act by act a move does what it is said to do                    (enact_acts)
    mishaps leave silent modes silent                               (hushed_of_weathered)
    nothing plays that has not been started since nothing played    (endure_of_silent)
    a stop that fails leaves everything but the effect as it was    (failed_stop_drops_effect)
-/

namespace LightingDesk

/-! ## Acts -/

/-- What a desk can start. -/
inductive Opening
  | highlight
  | preview
  | chase

/-- One thing that a desk does as part of a move.  It stops what is playing before it opens
something else. -/
inductive Act
  | plain (m : Move)
  | choose (change : Controls → Controls)
  | capture
  | showLive
  | stop
  | opens (what : Opening)

/-- Whether an act starts a worker. -/
def Act.starts : Act → Bool
  | opens _ => true
  | _ => false

/-- The acts that lead from staging to a choice. -/
def Staged.acts : Staged → List Act
  | rawDmx => [.stop, .showLive, .choose fun c => { c with channelIndex := 0, mode := .manual }]
  | rainbow => [.stop, .choose fun c => { c with mode := .wheel }]
  | preset => [.stop, .choose fun c => { c with mode := .preset }]

/-- The acts of a move, in their order. -/
def Move.acts (rig : List Fixture) (c : Controls) : Move → List Act
  | enterLights =>
    [.capture, .choose fun c => { c with cursor := min c.cursor (rig.length - 1) },
      .opens .highlight, .choose fun c => { c with mode := .lights }]
  | startChase => [.opens .chase, .choose fun c => { c with mode := .chase }]
  | commitSelection =>
    let set := c.picked rig
    [.stop, .choose Controls.deselect, .showLive,
      .choose fun c => { c with
        workingSet := set
        canEditRaw := Controls.sameCounts (set.filterMap (rig[·]?))
        staged := .preset },
      .opens .preview, .choose fun c => { c with mode := .staging }]
  | leaveLights =>
    [.stop, .choose Controls.deselect, .showLive, .choose fun c => { c with mode := .idle }]
  | restage turn =>
    let staged := c.staged.around c.canEditRaw turn
    [.stop, .showLive, .choose fun c => { c with staged }, .opens .preview]
  | commitStaged => c.staged.acts
  | backToLights =>
    [.stop, .showLive, .opens .highlight, .choose fun c => { c with mode := .lights }]
  | keepEdit => [.stop, .capture, .opens .highlight, .choose fun c => { c with mode := .lights }]
  | dropEdit =>
    [.stop, .showLive, .opens .preview, .choose fun c => { c with mode := .staging }]
  | stopChase => [.stop, .showLive, .choose fun c => { c with mode := .idle }]
  | m => [.plain m]

/-! ## Stops that fail -/

theorem Worker.stop_error {w : Worker} {limit : Nat} {e : StopError}
    (h : (w.stop limit).2 = .error e) :
    w.body ≠ .waits ∧ (e = .timeout w.name limit ∨ e = .panicked w.name) := by
  simp only [Worker.stop] at h
  split at h
  · cases h
  · split at h
    · cases h
    · cases h
    · rename_i hbody
      cases h
      exact ⟨by simp [hbody], .inr rfl⟩
    · rename_i hbody
      cases h
      exact ⟨by simp [hbody], .inl rfl⟩

/-- A stop that fails puts nothing back. -/
theorem Playback.stop_error {σ : Type} [Sink σ] {q : Playback} {limit : Nat} {s : Stage σ}
    {e : StopError} (h : (q.stop limit s).2 = .error e) : (q.stop limit s).1 = s ∧
      (e = .timeout q.worker.name limit ∨ e = .panicked q.worker.name) := by
  unfold Playback.stop at h ⊢
  split at h
  · rename_i hbody
    dsimp only at h ⊢
    split at h
    · rename_i hblocks
      rw [if_pos hblocks]
      exact ⟨rfl, (Worker.stop_error h).2⟩
    · exact absurd hbody (Worker.stop_error h).1
  · exact ⟨rfl, (Worker.stop_error h).2⟩

namespace Desk

variable {σ : Type} [Sink σ]

/-- Starts something. -/
def opening (d : Desk σ) : Opening → Desk σ
  | .highlight => d.startHighlight
  | .preview => d.startPreview
  | .chase => d.startChase

/-- Does one act. -/
def act (d : Desk σ) : Act → Desk σ × Except StopError Unit
  | .plain m => (d.fulfil m, .ok ())
  | .choose change => (d.choose (change d.controls), .ok ())
  | .capture => (d.captureFrame, .ok ())
  | .showLive => (d.showLive, .ok ())
  | .stop => d.stopEffect
  | .opens what =>
    match d.stopEffect with
    | (d', .ok ()) => (d'.opening what, .ok ())
    | (d', .error e) => (d', .error e)

/-- Does acts, one after the other, up to the first that fails. -/
def enact (d : Desk σ) : List Act → Desk σ × Except StopError Unit
  | [] => (d, .ok ())
  | a :: rest =>
    match d.act a with
    | (d', .ok ()) => d'.enact rest
    | (d', .error e) => (d', .error e)

/-- Does acts, one after the other, up to the first that fails, when no worker can be started. -/
def starve (d : Desk σ) : List Act → Desk σ
  | [] => d
  | a :: rest =>
    if a.starts then d.stopEffect.1
    else
      match d.act a with
      | (d', .ok ()) => d'.starve rest
      | (d', .error _) => d'

/-! ## Act by act -/

theorem stopEffect_of_silent {d : Desk σ} (h : d.playing = none) : d.stopEffect = (d, .ok ()) := by
  simp only [stopEffect, h]

theorem enact_stop_of_silent {d : Desk σ} (h : d.playing = none) (rest : List Act) :
    d.enact (.stop :: rest) = d.enact rest := by
  simp only [enact, act, stopEffect_of_silent h]

/-- Starting something has nothing to do with the mode. -/
theorem opening_mode (d : Desk σ) (what : Opening) (mode : Mode) :
    (d.opening what).choose { (d.opening what).controls with mode } =
      (d.choose { d.controls with mode }).opening what := by
  unfold opening choose
  cases what with
  | highlight =>
    unfold startHighlight
    dsimp only
    split <;> rfl
  | preview =>
    unfold startPreview
    dsimp only
    split <;> rfl
  | chase =>
    unfold startChase
    dsimp only
    split <;> rfl

theorem enact_opens {d : Desk σ} (h : d.playing = none) (what : Opening) :
    d.enact [.opens what] = (d.opening what, .ok ()) := by
  simp only [enact, act, stopEffect_of_silent h]

theorem enact_opens_mode {d : Desk σ} (h : d.playing = none) (what : Opening) (mode : Mode) :
    d.enact [.opens what, .choose fun c => { c with mode }] =
      ((d.choose { d.controls with mode }).opening what, .ok ()) := by
  simp only [enact, act, stopEffect_of_silent h, opening_mode]

theorem enact_staged {d : Desk σ} (h : d.playing = none) :
    d.enact d.controls.staged.acts = (d.fulfil .commitStaged, .ok ()) := by
  rw [fulfil_eq]
  cases hs : d.controls.staged with
  | rawDmx =>
    have hc : d.controls.after d.rig .commitStaged =
        { d.controls with channelIndex := 0, mode := .manual } := by
      simp only [Controls.after, Controls.commitStaged, hs]
    have hp : d.prepare .commitStaged = d.showLive := if_pos hs
    rw [hc, hp]
    exact enact_stop_of_silent h _
  | rainbow =>
    have hc : d.controls.after d.rig .commitStaged = { d.controls with mode := .wheel } := by
      simp only [Controls.after, Controls.commitStaged, hs]
    have hp : d.prepare .commitStaged = d := if_neg (by simp [hs])
    rw [hc, hp]
    exact enact_stop_of_silent h _
  | preset =>
    have hc : d.controls.after d.rig .commitStaged = { d.controls with mode := .preset } := by
      simp only [Controls.after, Controls.commitStaged, hs]
    have hp : d.prepare .commitStaged = d := if_neg (by simp [hs])
    rw [hc, hp]
    exact enact_stop_of_silent h _

/-- Where nothing is playing no act fails, and together they do what the move is said to do. -/
theorem enact_acts_of_silent {d : Desk σ} (h : d.playing = none) (m : Move) :
    d.enact (m.acts d.rig d.controls) = (d.fulfil m, .ok ()) := by
  cases m with
  | enterLights =>
    let cursor := min d.controls.cursor (d.rig.length - 1)
    exact enact_opens_mode (d := d.captureFrame.choose { d.controls with cursor }) h .highlight _
  | startChase => exact enact_opens_mode h .chase _
  | commitSelection =>
    refine (enact_stop_of_silent h _).trans ?_
    exact enact_opens_mode (d := d.showLive.choose _) h .preview _
  | restage turn =>
    refine (enact_stop_of_silent h _).trans ?_
    exact enact_opens (d := d.showLive.choose _) h .preview
  | commitStaged => exact enact_staged h
  | backToLights =>
    exact (enact_stop_of_silent h _).trans (enact_opens_mode (d := d.showLive) h .highlight _)
  | keepEdit =>
    exact (enact_stop_of_silent h _).trans (enact_opens_mode (d := d.captureFrame) h .highlight _)
  | dropEdit =>
    exact (enact_stop_of_silent h _).trans (enact_opens_mode (d := d.showLive) h .preview _)
  | leaveLights | stopChase => exact enact_stop_of_silent h _
  | _ => rfl

theorem carryOut_of_silent {d : Desk σ} (h : d.playing = none) {m : Move}
    (allowed : d.allows m = true) : d.carryOut m = (d.fulfil m, .ok ()) := by
  simp only [carryOut, allowed, stopEffect_of_silent h, if_true, ite_self]

/-- In a mode in which something may be playing, a move that stops it does so at once. -/
theorem acts_of_playing {c : Controls} {m : Move} (hm : c.mode ∈ m.modes)
    (hplaying : c.mode ∉ silentModes) (rig : List Fixture) :
    if m.stopsEffect then ∃ rest, m.acts rig c = .stop :: rest else m.acts rig c = [.plain m] := by
  cases m with
  | commitStaged => cases hs : c.staged <;> exact ⟨_, congrArg Staged.acts hs⟩
  | commitSelection | leaveLights | restage | backToLights | stopChase => exact ⟨_, rfl⟩
  | enterLights | startChase | keepEdit | dropEdit =>
    -- these are for modes in which nothing plays
    simp_all [Move.modes, silentModes]
  | _ => rfl

/-- Act by act a move does what it is said to do, also when what is playing does not stop. -/
theorem enact_acts {d : Desk σ} (hushed : d.Hushed) {m : Move} (hm : d.controls.mode ∈ m.modes)
    (allowed : d.allows m = true) : d.enact (m.acts d.rig d.controls) = d.carryOut m := by
  by_cases silent : d.playing = none
  · rw [enact_acts_of_silent silent, carryOut_of_silent silent allowed]
  · have hplaying : d.controls.mode ∉ silentModes := fun h =>
      silent (Option.map_eq_none_iff.1 (hushed h))
    have hacts := acts_of_playing hm hplaying d.rig
    by_cases stops : m.stopsEffect = true
    · rw [if_pos stops] at hacts
      obtain ⟨rest, hrest⟩ := hacts
      -- once the effect has stopped, stopping it again would do nothing
      have gone := enact_acts_of_silent (playing_stopEffect d) m
      rw [rig_stopEffect, controls_stopEffect, hrest,
        enact_stop_of_silent (playing_stopEffect d)] at gone
      rw [hrest]
      simp only [enact, act, carryOut, allowed, stops, if_true]
      generalize d.stopEffect = out at gone ⊢
      obtain ⟨d', answer⟩ := out
      cases answer with
      | ok u => exact gone
      | error e => rfl
    · rw [if_neg stops] at hacts
      rw [hacts, carryOut, if_pos allowed, if_neg stops]
      rfl

/-! ## Starving -/

theorem playing_act_error {d : Desk σ} {a : Act} {e : StopError} (h : (d.act a).2 = .error e) :
    (d.act a).1.playing = none := by
  cases a with
  | stop => exact playing_stopEffect d
  | opens what =>
    have gone := playing_stopEffect d
    unfold act at h ⊢
    generalize d.stopEffect = out at gone h ⊢
    obtain ⟨d', answer⟩ := out
    cases answer with
    | ok u => cases h
    | error e => exact gone
  | _ => cases h

/-- Where no worker can be started, the acts of a move either need none or leave nothing playing. -/
theorem starve_eq (d : Desk σ) (acts : List Act) :
    (d.starve acts).playing = none ∨ d.starve acts = (d.enact acts).1 := by
  induction acts generalizing d with
  | nil => exact .inr rfl
  | cons a rest ih =>
    unfold starve enact
    by_cases hs : a.starts = true
    · rw [if_pos hs]
      exact .inl (playing_stopEffect d)
    · rw [if_neg hs]
      have stuck := @playing_act_error _ _ d a
      generalize d.act a = out at stuck ⊢
      obtain ⟨d', answer⟩ := out
      cases answer with
      | ok u => exact ih d'
      | error e => exact .inl (stuck rfl)

/-! ## What may happen -/

/-- What may happen to a desk: an input is given to it, or a packet comes when no worker can be
started; it is switched off and goes on being used; the worker of the effect that plays breaks down
or hangs; and the lights or what drives them change by themselves or through effects left behind. -/
inductive Occurrence (σ : Type)
  | given (i : Input)
  | starved (p : Packet)
  | switchedOff
  | broken (body : Body)
  | drifted (stage : Stage σ)

/-- The desk after a packet has come when no worker can be started. -/
def handleStarved (d : Desk σ) (p : Packet) : Desk σ :=
  match d.asked p with
  | some m => if d.allows m then d.starve (m.acts d.rig d.controls) else d
  | none => (d.handle p).1

/-- The desk after something has happened. -/
def undergo (d : Desk σ) : Occurrence σ → Desk σ
  | .given i => (d.step i).1
  | .starved p => d.handleStarved p
  | .switchedOff => d.shutdown.1
  | .broken body =>
    { d with playing := d.playing.map fun q => { q with worker := { q.worker with body } } }
  | .drifted stage => { d with stage }

/-- The desk after all that has happened. -/
def endure (d : Desk σ) (occurrences : List (Occurrence σ)) : Desk σ := occurrences.foldl undergo d

/-- Some desk that has just been switched on gets here, whatever may have happened. -/
def Weathered (d : Desk σ) : Prop :=
  ∃ rig sink scenes delay stopLimit dice occurrences,
    d = (start rig sink scenes delay stopLimit dice).endure occurrences

omit [Sink σ] in
theorem mode_mem_of_asked {d : Desk σ} {p : Packet} {m : Move} (h : d.asked p = some m) :
    d.controls.mode ∈ m.modes := by
  rw [asked_eq] at h
  obtain ⟨a, -, hm⟩ := Option.bind_eq_some_iff.1 h
  exact Move.mode_mem_modes hm

omit [Sink σ] in
theorem hushed_of_silent {d : Desk σ} (h : d.playing = none) : d.Hushed :=
  fun _ => Option.map_eq_none_iff.2 h

/-- Where no worker can be started, a packet leaves nothing playing or needs no worker. -/
theorem handleStarved_eq {d : Desk σ} (h : d.Hushed) (p : Packet) :
    (d.handleStarved p).playing = none ∨ d.handleStarved p = (d.step (.packet p)).1 := by
  unfold handleStarved
  cases hasked : d.asked p with
  | none => exact .inr rfl
  | some m =>
    dsimp only
    by_cases allowed : d.allows m = true
    · rw [if_pos allowed]
      refine (starve_eq d _).imp_right fun same => ?_
      rw [same, enact_acts h (mode_mem_of_asked hasked) allowed, step_of_asked hasked]
    · right
      rw [if_neg allowed, step_of_asked hasked, carryOut, if_neg allowed]

theorem hushed_undergo (d : Desk σ) (o : Occurrence σ) (h : d.Hushed) : (d.undergo o).Hushed := by
  cases o with
  | given i => exact hushed_step d i h
  | starved p =>
    rcases handleStarved_eq h p with silent | same
    · exact hushed_of_silent silent
    · rw [undergo, same]
      exact hushed_step d (.packet p) h
  | switchedOff => exact hushed_of_silent (playing_stopEffect d)
  | broken body =>
    intro hm
    have silent : d.playing = none := Option.map_eq_none_iff.1 (h hm)
    simp only [undergo, piece?, silent, Option.map_none]
  | drifted stage => exact h

/-- Not even mishaps let an effect play where it has no place. -/
theorem hushed_of_weathered {d : Desk σ} (h : d.Weathered) : d.Hushed := by
  obtain ⟨rig, sink, scenes, delay, stopLimit, dice, occurrences, rfl⟩ := h
  have first : (start rig sink scenes delay stopLimit dice).Hushed := fun _ => rfl
  unfold endure
  generalize start rig sink scenes delay stopLimit dice = d at first ⊢
  induction occurrences generalizing d with
  | nil => exact first
  | cons o rest ih => exact ih _ (hushed_undergo d o first)

/-! ## Effects that start -/

theorem editHighlight_of_silent {d : Desk σ} (h : d.playing = none)
    (edit : Highlight × Stage σ → Highlight × Stage σ) : d.editHighlight edit = d := by
  simp only [editHighlight, h]

theorem playing_prepare_of_silent {d : Desk σ} (h : d.playing = none) (m : Move) :
    (d.prepare m).playing = none := by
  cases m with
  | cursor turn =>
    show (d.pointAt _).playing = none
    unfold pointAt
    split
    · rw [editHighlight_of_silent h]
      exact h
    · exact h
  | clearSelection => exact (congrArg playing (editHighlight_of_silent h _)).trans h
  | commitStaged =>
    unfold prepare
    dsimp only
    split <;> exact h
  | _ => exact h

theorem opening_eq (d : Desk σ) (what : Opening) :
    d.opening what = d ∨ ∃ effect, d.opening what = d.begin effect := by
  unfold opening
  cases what with
  | highlight =>
    unfold startHighlight
    dsimp only
    split <;> exact .inr ⟨_, rfl⟩
  | preview =>
    unfold startPreview
    dsimp only
    split <;> exact .inr ⟨_, rfl⟩
  | chase =>
    unfold startChase
    dsimp only
    split
    · exact .inr ⟨_, rfl⟩
    · exact .inl rfl

theorem conclude_of_silent {d : Desk σ} (h : d.playing = none) (m : Move) :
    (d.conclude m).playing = none ∨ ∃ effect, d.conclude m = d.begin effect := by
  have opened : ∀ what, (d.opening what).playing = none ∨
      ∃ effect, d.opening what = d.begin effect :=
    fun what => (opening_eq d what).imp_left fun same => by rw [same, h]
  cases m with
  | enterLights | backToLights | keepEdit => exact opened .highlight
  | commitSelection | restage | dropEdit => exact opened .preview
  | startChase => exact opened .chase
  | slower | faster =>
    left
    simp only [conclude, passDelay, h]
  | _ => exact .inl h

/-- Where nothing is playing, a move starts an effect or leaves it at that. -/
theorem fulfil_of_silent {d : Desk σ} (h : d.playing = none) (m : Move) :
    (d.fulfil m).playing = none ∨ ∃ d' effect, d.fulfil m = begin d' effect := by
  have chosen : ((d.prepare m).choose (d.controls.after d.rig m)).playing = none :=
    playing_prepare_of_silent h m
  rw [fulfil_eq]
  exact (conclude_of_silent chosen m).imp_right fun ⟨effect, he⟩ => ⟨_, effect, he⟩

/-- Whether something that happens starts an effect on a desk on which nothing is playing. -/
def Starts (d : Desk σ) (o : Occurrence σ) : Prop :=
  d.playing = none ∧ ∃ d' effect, d.undergo o = begin d' effect

theorem step_of_silent {d : Desk σ} (h : d.playing = none) (i : Input) :
    (d.step i).1.playing = none ∨ ∃ d' effect, (d.step i).1 = begin d' effect := by
  have hd := dealt_step d i
  generalize d.step i = out at hd
  cases hd with
  | moved a m =>
    refine fulfil_of_silent ?_ m
    unfold clearedFor
    split
    · exact playing_stopEffect d
    · exact h
  | stuck => exact .inl (playing_stopEffect d)
  | waited span =>
    left
    simp only [wait, h]
  | ignored | painted | followed => exact .inl h

theorem undergo_of_silent {d : Desk σ} (h : d.playing = none) (o : Occurrence σ) :
    (d.undergo o).playing = none ∨ d.Starts o := by
  cases o with
  | given i => exact (step_of_silent h i).imp_right fun starts => ⟨h, starts⟩
  | starved p =>
    rcases handleStarved_eq (hushed_of_silent h) p with silent | same
    · exact .inl silent
    · have hu : d.undergo (.starved p) = (d.step (.packet p)).1 := same
      rw [Starts, hu]
      exact (step_of_silent h (.packet p)).imp_right fun starts => ⟨h, starts⟩
  | switchedOff => exact .inl (playing_stopEffect d)
  | broken body =>
    left
    simp only [undergo, h, Option.map_none]
  | drifted stage => exact .inl h

/-- Nothing plays that has not been started since nothing was playing. -/
theorem endure_of_silent {d : Desk σ} (h : d.playing = none) (later : List (Occurrence σ)) :
    (d.endure later).playing = none ∨
      ∃ before o rest, later = before ++ o :: rest ∧ (d.endure before).Starts o := by
  induction later generalizing d with
  | nil => exact .inl h
  | cons o later ih =>
    rcases undergo_of_silent h o with silent | starts
    · refine (ih silent).imp_right ?_
      rintro ⟨before, o', rest, rfl, starts⟩
      exact ⟨o :: before, o', rest, rfl, starts⟩
    · exact .inr ⟨[], o, later, rfl, starts⟩

/-! ## Errors -/

theorem stopEffect_error {d : Desk σ} {e : StopError} (h : d.stopEffect.2 = .error e) :
    ∃ q, d.playing = some q ∧ d.stopEffect.1 = { d with playing := none } ∧
      (e = .timeout q.worker.name d.stopLimit ∨ e = .panicked q.worker.name) := by
  cases hp : d.playing with
  | none =>
    rw [stopEffect_of_silent hp] at h
    cases h
  | some q =>
    simp only [stopEffect, hp] at h ⊢
    obtain ⟨same, reason⟩ := Playback.stop_error h
    exact ⟨q, rfl, by rw [same], reason⟩

theorem ok_of_unasked {d : Desk σ} {p : Packet} (h : d.asked p = none) :
    ∃ answer, (d.handle p).2 = .ok answer := by
  match p, h with
  | ⟨.data, mode, .userAction code⟩, h =>
    simp only [handle, h]
    exact ⟨false, rfl⟩
  | ⟨.data, mode, .joystick x y⟩, _ =>
    simp only [handle]
    split <;> exact ⟨_, rfl⟩
  | ⟨.data, mode, .gyro x y z⟩, _ =>
    simp only [handle]
    split <;> exact ⟨_, rfl⟩
  | ⟨.data, mode, .status s⟩, _ => exact ⟨_, rfl⟩
  | ⟨.data, mode, .empty⟩, _ => exact ⟨_, rfl⟩
  | ⟨.poll, mode, payload⟩, _ => exact ⟨_, rfl⟩
  | ⟨.pollReply, mode, payload⟩, _ => exact ⟨_, rfl⟩

/-- Only a move that is carried out can fail. -/
theorem handle_error {d : Desk σ} {p : Packet} {e : StopError} (h : (d.handle p).2 = .error e) :
    ∃ m, d.asked p = some m ∧ d.carryOut m = ((d.handle p).1, .error e) := by
  cases hasked : d.asked p with
  | none =>
    obtain ⟨answer, hok⟩ := ok_of_unasked hasked
    rw [h] at hok
    cases hok
  | some m =>
    refine ⟨m, rfl, ?_⟩
    rw [← step_of_asked hasked, step, h]
    rfl

theorem handle_of_silent {d : Desk σ} (h : d.playing = none) (p : Packet) :
    ∃ answer, (d.handle p).2 = .ok answer := by
  cases hans : (d.handle p).2 with
  | ok answer => exact ⟨answer, rfl⟩
  | error e =>
    obtain ⟨m, -, hm⟩ := handle_error hans
    have failed := (carryOut_error d m (congrArg Prod.snd hm)).2
    rw [stopEffect_of_silent h] at failed
    cases failed

/-- A stop that fails leaves everything as it was, whatever mishaps there have been before.  Only
the effect is gone, and nothing fails again until another has been started. -/
theorem failed_stop_drops_effect {d : Desk σ} (h : d.Weathered) {p : Packet} {e : StopError}
    (failed : (d.handle p).2 = .error e) :
    ∃ m q, d.asked p = some m ∧ d.playing = some q ∧
      (e = .timeout q.worker.name d.stopLimit ∨ e = .panicked q.worker.name) ∧
      (d.handle p).1 = { d with playing := none } ∧
      d.enact (m.acts d.rig d.controls) = ({ d with playing := none }, .error e) ∧
      ∀ later, let after := (d.handle p).1.endure later
        (after.shutdown = (after, .ok ()) ∧ ∀ p', ∃ answer, (after.handle p').2 = .ok answer) ∨
        ∃ before o rest, later = before ++ o :: rest ∧ ((d.handle p).1.endure before).Starts o := by
  obtain ⟨m, hasked, hm⟩ := handle_error failed
  obtain ⟨hgone, hstop⟩ := carryOut_error d m (congrArg Prod.snd hm)
  obtain ⟨q, hq, hd, reason⟩ := stopEffect_error hstop
  rw [hm] at hgone
  have same : (d.handle p).1 = { d with playing := none } := hgone.trans hd
  have allowed : d.allows m = true := by
    by_contra ha
    simp [carryOut, ha] at hm
  refine ⟨m, q, hasked, hq, reason, same, ?_, fun later => ?_⟩
  · rw [enact_acts (hushed_of_weathered h) (mode_mem_of_asked hasked) allowed, hm, same]
  · have silent : (d.handle p).1.playing = none := by rw [same]
    refine (endure_of_silent silent later).imp_left fun silent => ?_
    exact ⟨stopEffect_of_silent silent, handle_of_silent silent⟩

/-- One lamp on a recorder whose writes never return, while it is being picked. -/
def pickHungLamp : Desk Recorder :=
  (start [lamp 101] ⟨Frame.dark, [], fun _ _ => none, true⟩ (.inMemory []) 0 50000000
    fun _ => .white).endure [.given (.press .b1)]

theorem failed_stop_drops_effect_hungLamp :
    (pickHungLamp.handle (.ofAction .b2 0)).2 =
        .error (.timeout "effect-highlight" 50000000) ∧
      (pickHungLamp.handle (.ofAction .b2 0)).1 = { pickHungLamp with playing := none } := by
  have weathered : pickHungLamp.Weathered := ⟨_, _, _, _, _, _, _, rfl⟩
  have failed : (pickHungLamp.handle (.ofAction .b2 0)).2 =
      .error (.timeout "effect-highlight" 50000000) := by rfl
  obtain ⟨-, -, -, -, -, same, -⟩ := failed_stop_drops_effect weathered failed
  exact ⟨failed, same⟩

/-- An effect that has broken down before the selection is committed. -/
example :
    let d := twoLamps.endure [.given (.press .b1), .given (.press .ps2), .broken .panics]
    (d.handle (.ofAction .b1 0)).2 = .error (.panicked "effect-highlight") ∧
      (d.handle (.ofAction .b1 0)).1.controls.selected = [true, false] := ⟨rfl, rfl⟩

end Desk

end LightingDesk
