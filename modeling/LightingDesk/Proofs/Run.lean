import LightingDesk.Desk.Lemmas

/-!
# Runs

A desk is given packets, and time passes.  A run is what becomes of a desk that is given a list
of such inputs, also after an effect has failed to stop.  A run is smooth if no input of it is
answered with an error.

    an input is dealt with in one of six ways                      (dealt_step)
    an input changes the choices by an allowed move or not at all  (controls_step)
    what every step keeps is kept by every run                     (run_keeps, smooth_run_keeps)
-/

namespace LightingDesk

/-- Something that a desk is given. -/
inductive Input
  | packet (p : Packet)
  | wait (span : Nat)
deriving DecidableEq, Repr

/-- A press of the controller. -/
def Input.press (action : Action) : Input := .packet (.ofAction action 0)

/-- The known action of a data packet. -/
def Input.pressed? : Input → Option Action
  | .packet p =>
    match p.kind, p.payload with
    | .data, .userAction code => Action.ofCode? code
    | _, _ => none
  | .wait _ => none

/-- The modes in which a move can be asked for. -/
def Move.modes : Move → List Mode
  | scene _ | liveScene | saveScene | deleteScene | enterLights | startChase
  | enterShow _ => [.idle]
  | cursor _ | toggle | clearSelection | commitSelection | leaveLights => [.lights]
  | restage _ | commitStaged | backToLights => [.staging]
  | keepEdit | dropEdit => [.wheel, .manual, .preset]
  | channel _ | raise | lower | blackOut => [.manual]
  | preset _ => [.preset]
  | slower | faster | stopChase => [.chase]
  | leaveShow => [.party, .scary]

theorem Move.mode_mem_modes {mode : Mode} {a : Action} {m : Move} (h : Move.of? mode a = some m) :
    mode ∈ m.modes := by
  cases mode <;> cases a <;> cases h <;> decide

namespace Desk

variable {σ : Type} [Sink σ]

/-- Takes an input.  The answer is an error when the effect that was playing did not stop. -/
def step (d : Desk σ) : Input → Desk σ × Except StopError Unit
  | .packet p => ((d.handle p).1, (d.handle p).2.map fun _ => ())
  | .wait span => (d.wait span, .ok ())

/-- Takes inputs, one after the other, whatever the answers. -/
def run (d : Desk σ) (inputs : List Input) : Desk σ := inputs.foldl (fun d i => (d.step i).1) d

/-- Some desk that has just been switched on gets here. -/
def Reachable (d : Desk σ) : Prop :=
  ∃ rig sink scenes delay stopLimit dice inputs,
    d = (start rig sink scenes delay stopLimit dice).run inputs

/-- No input is answered with an error. -/
def Smooth (d : Desk σ) : List Input → Prop
  | [] => True
  | i :: rest => (d.step i).2 = .ok () ∧ (d.step i).1.Smooth rest

instance decidableSmooth : (d : Desk σ) → (inputs : List Input) → Decidable (d.Smooth inputs)
  | _, [] => .isTrue trivial
  | d, i :: rest =>
    have := decidableSmooth (d.step i).1 rest
    have : Decidable ((d.step i).2 = .ok ()) :=
      match (d.step i).2 with
      | .ok () => .isTrue rfl
      | .error _ => .isFalse nofun
    inferInstanceAs (Decidable ((d.step i).2 = .ok () ∧ (d.step i).1.Smooth rest))

/-- The desk on which a move is carried out: the effect has been stopped if the move asks for it. -/
def clearedFor (d : Desk σ) (m : Move) : Desk σ := if m.stopsEffect then d.stopEffect.1 else d

/-- How an input can be dealt with: what becomes of the desk, and the answer. -/
inductive Dealt (d : Desk σ) (i : Input) : Desk σ × Except StopError Unit → Prop
  | ignored
      (idle : ∀ a m, i.pressed? = some a → Move.of? d.controls.mode a = some m →
        d.allows m = false) :
      Dealt d i (d, .ok ())
  | moved (a : Action) (m : Move) (pressed : i.pressed? = some a)
      (asked : Move.of? d.controls.mode a = some m) (allowed : d.allows m = true)
      (stopped : m.stopsEffect = true → d.stopEffect.2 = .ok ()) :
      Dealt d i ((d.clearedFor m).fulfil m, .ok ())
  | stuck (e : StopError) (failed : d.stopEffect.2 = .error e) :
      Dealt d i (d.stopEffect.1, .error e)
  | painted (color : Color) (unpressed : i.pressed? = none) (mode : d.controls.mode = .wheel) :
      Dealt d i (d.paint color, .ok ())
  | followed (magnitude : Nat) (unpressed : i.pressed? = none)
      (mode : d.controls.mode = .party ∨ d.controls.mode = .scary) :
      Dealt d i (d.follow magnitude, .ok ())
  | waited (span : Nat) (waits : i = .wait span) : Dealt d i (d.wait span, .ok ())

/-! ## One input -/

theorem dealt_carryOut (d : Desk σ) {i : Input} {a : Action} {m : Move}
    (pressed : i.pressed? = some a) (asked : Move.of? d.controls.mode a = some m) :
    Dealt d i (d.carryOut m) := by
  unfold carryOut
  by_cases allowed : d.allows m = true
  · by_cases stops : m.stopsEffect = true
    · simp only [allowed, stops, if_true]
      cases h : d.stopEffect with
      | mk d' answer =>
        cases answer with
        | ok u =>
          have hd : d.clearedFor m = d' := by simp [clearedFor, stops, h]
          have := Dealt.moved a m pressed asked allowed fun _ => by rw [h]
          rwa [hd] at this
        | error e =>
          have := Dealt.stuck (d := d) (i := i) e (by rw [h])
          rwa [h] at this
    · have hd : d.clearedFor m = d := by simp [clearedFor, stops]
      have := Dealt.moved a m pressed asked allowed fun h => absurd h stops
      rw [hd] at this
      simpa [allowed, stops] using this
  · simp only [allowed]
    refine .ignored ?_
    intro a' m' pressed' asked'
    rw [pressed] at pressed'
    cases pressed'
    rw [asked] at asked'
    cases asked'
    simpa using allowed

omit [Sink σ] in
theorem asked_eq (d : Desk σ) (p : Packet) :
    d.asked p = (Input.packet p).pressed?.bind (Move.of? d.controls.mode) := by
  obtain ⟨kind, mode, payload⟩ := p
  cases kind <;> cases payload <;> rfl

theorem step_of_asked {d : Desk σ} {p : Packet} {m : Move} (h : d.asked p = some m) :
    d.step (.packet p) = d.carryOut m := by
  match p, h with
  | ⟨.data, mode, .userAction code⟩, h =>
    have hh : d.handle ⟨.data, mode, .userAction code⟩ =
        ((d.carryOut m).1, (d.carryOut m).2.map fun _ =>
          decide ((d.carryOut m).1.controls.mode ≠ d.controls.mode)) := by
      simp only [handle, h]
    show ((d.handle _).1, (d.handle _).2.map fun _ => ()) = _
    rw [hh]
    obtain ⟨d', answer⟩ := d.carryOut m
    cases answer <;> rfl

theorem dealt_userAction (d : Desk σ) (mode code : UInt8) :
    Dealt d (.packet ⟨.data, mode, .userAction code⟩)
      (d.step (.packet ⟨.data, mode, .userAction code⟩)) := by
  have ha := asked_eq d ⟨.data, mode, .userAction code⟩
  cases h : d.asked ⟨.data, mode, .userAction code⟩ with
  | none =>
    have hs : d.step (.packet ⟨.data, mode, .userAction code⟩) = (d, .ok ()) := by
      simp only [step, handle, h]
      rfl
    rw [hs]
    refine .ignored ?_
    intro a m pressed asked
    rw [h, pressed, Option.bind_some, asked] at ha
    cases ha
  | some m =>
    rw [step_of_asked h]
    obtain ⟨a, pressed, asked⟩ := Option.bind_eq_some_iff.1 (ha.symm.trans h)
    exact dealt_carryOut d pressed asked

/-- Every input is dealt with in one of the six ways. -/
theorem dealt_step (d : Desk σ) (i : Input) : Dealt d i (d.step i) := by
  match i with
  | .wait span => exact .waited span rfl
  | .packet ⟨.data, mode, .userAction code⟩ => exact dealt_userAction d mode code
  | .packet ⟨.data, mode, .joystick x y⟩ =>
    by_cases h : d.controls.mode = .wheel
    · have hs : d.handle ⟨.data, mode, .joystick x y⟩ =
          (d.paint (Color.wheel x.toInt y.toInt), .ok false) := if_pos h
      simp only [step, hs]
      exact .painted _ rfl h
    · have hs : d.handle ⟨.data, mode, .joystick x y⟩ = (d, .ok true) := if_neg h
      simp only [step, hs]
      exact .ignored fun _ _ pressed => nomatch pressed
  | .packet ⟨.data, mode, .gyro x y z⟩ =>
    by_cases h : d.controls.mode = .party ∨ d.controls.mode = .scary
    · have hs : d.handle ⟨.data, mode, .gyro x y z⟩ =
          (d.follow (gyroMagnitude x y z), .ok false) := if_pos h
      simp only [step, hs]
      exact .followed _ rfl h
    · have hs : d.handle ⟨.data, mode, .gyro x y z⟩ = (d, .ok true) := if_neg h
      simp only [step, hs]
      exact .ignored fun _ _ pressed => nomatch pressed
  | .packet ⟨.data, mode, .status s⟩ => exact .ignored fun _ _ pressed => nomatch pressed
  | .packet ⟨.data, mode, .empty⟩ => exact .ignored fun _ _ pressed => nomatch pressed
  | .packet ⟨.poll, mode, payload⟩ => exact .ignored fun _ _ pressed => nomatch pressed
  | .packet ⟨.pollReply, mode, payload⟩ => exact .ignored fun _ _ pressed => nomatch pressed

theorem book_clearedFor (d : Desk σ) (m : Move) : (d.clearedFor m).book = d.book := by
  unfold clearedFor
  split
  · exact book_stopEffect d
  · rfl

theorem rig_clearedFor (d : Desk σ) (m : Move) : (d.clearedFor m).rig = d.rig :=
  congrArg Book.rig (book_clearedFor d m)

theorem controls_clearedFor (d : Desk σ) (m : Move) : (d.clearedFor m).controls = d.controls :=
  congrArg Book.controls (book_clearedFor d m)

theorem scenes_clearedFor (d : Desk σ) (m : Move) : (d.clearedFor m).scenes = d.scenes :=
  congrArg Book.scenes (book_clearedFor d m)

theorem allows_clearedFor (d : Desk σ) (m m' : Move) :
    (d.clearedFor m).allows m' = d.allows m' := by
  unfold allows
  rw [rig_clearedFor, controls_clearedFor, scenes_clearedFor]

theorem rig_step (d : Desk σ) (i : Input) : (d.step i).1.rig = d.rig := by
  have h := dealt_step d i
  generalize d.step i = out at h
  cases h with
  | ignored => rfl
  | moved a m => exact (rig_fulfil _ m).trans (rig_clearedFor d m)
  | stuck => exact rig_stopEffect d
  | painted => rfl
  | followed => rfl
  | waited span => exact rig_wait d span

/-- The choices change by a move that is possible in the mode, or not at all. -/
theorem controls_step (d : Desk σ) (i : Input) : (d.step i).1.controls = d.controls ∨
    ∃ m, d.controls.mode ∈ m.modes ∧ d.allows m = true ∧
      (d.step i).1.controls = d.controls.after d.rig m := by
  have h := dealt_step d i
  generalize d.step i = out at h
  cases h with
  | ignored => exact .inl rfl
  | moved a m pressed asked allowed =>
    refine .inr ⟨m, Move.mode_mem_modes asked, allowed, ?_⟩
    rw [controls_fulfil, controls_clearedFor, rig_clearedFor]
  | stuck => exact .inl (controls_stopEffect d)
  | painted => exact .inl rfl
  | followed => exact .inl rfl
  | waited span => exact .inl (controls_wait d span)

/-- Only a move that is carried out leads to another mode. -/
theorem moved_of_entered {d : Desk σ} {i : Input} {mode : Mode} (before : d.controls.mode ≠ mode)
    (entered : (d.step i).1.controls.mode = mode) :
    ∃ a m, i.pressed? = some a ∧ Move.of? d.controls.mode a = some m ∧
      d.step i = ((d.clearedFor m).fulfil m, .ok ()) := by
  have hd := dealt_step d i
  generalize d.step i = out at hd entered
  cases hd with
  | moved a m pressed asked => exact ⟨a, m, pressed, asked, rfl⟩
  | stuck e =>
    exact absurd ((congrArg Controls.mode (controls_stopEffect d)).symm.trans entered) before
  | waited span =>
    exact absurd ((congrArg Controls.mode (controls_wait d span)).symm.trans entered) before
  | _ => exact absurd entered before

/-! ## Runs -/

theorem run_append (d : Desk σ) (before after : List Input) :
    d.run (before ++ after) = (d.run before).run after := List.foldl_append

/-- What every step keeps holds after every run. -/
theorem run_keeps {P : Desk σ → Prop} (keeps : ∀ d i, P d → P (d.step i).1) {d : Desk σ}
    (h : P d) (inputs : List Input) : P (d.run inputs) := by
  induction inputs generalizing d with
  | nil => exact h
  | cons i rest ih => exact ih (keeps d i h)

/-- What every step without an error keeps holds after every smooth run. -/
theorem smooth_run_keeps {P : Desk σ → Prop}
    (keeps : ∀ d i, (d.step i).2 = .ok () → P d → P (d.step i).1) {d : Desk σ} (h : P d)
    {inputs : List Input} (hs : d.Smooth inputs) : P (d.run inputs) := by
  induction inputs generalizing d with
  | nil => exact h
  | cons i rest ih => exact ih (keeps d i hs.1 h) hs.2

theorem rig_run (d : Desk σ) (inputs : List Input) : (d.run inputs).rig = d.rig :=
  run_keeps (P := fun d' => d'.rig = d.rig) (fun d' i h => (rig_step d' i).trans h) rfl inputs

end Desk

end LightingDesk
