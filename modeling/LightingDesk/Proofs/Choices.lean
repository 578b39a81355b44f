import LightingDesk.Proofs.Run

/-!
# Sound choices

`Controls.Sound` is what holds of an operator's choices at all times: places and indices are within
their bounds, flags are only up while lights are being picked, and what has been committed fits the
mode.  Moves keep it as long as they are allowed, so it holds after every run, whatever the sink
does with the writes, and also after an effect has failed to stop.

    a move that can be asked for keeps the choices sound      (sound_after)
    the choices are sound after every run                     (choices_sound)
-/

namespace LightingDesk

/-- Whether the mode is one of those that follow a committed selection. -/
def Mode.isCommitted : Mode → Bool
  | .staging | .wheel | .manual | .preset => true
  | _ => false

namespace Controls

/-- What holds of the choices at all times. -/
structure Sound (rig : List Fixture) (c : Controls) : Prop where
  length_selected : c.selected.length = rig.length
  unselected : c.mode ≠ .lights → ∀ flag ∈ c.selected, flag = false
  cursor_lt : rig ≠ [] → c.cursor < rig.length
  rig_ne : c.mode = .lights → rig ≠ []
  presetIndex_lt : c.presetIndex < 8
  increasing : c.workingSet.Pairwise (· < ·)
  workingSet_lt : ∀ i ∈ c.workingSet, i < rig.length
  workingSet_ne : c.mode.isCommitted → c.workingSet ≠ []
  canEditRaw_iff : c.mode.isCommitted → (c.canEditRaw = true ↔
    ∀ f ∈ c.workingFixtures rig, ∀ g ∈ c.workingFixtures rig, f.count = g.count)
  canEditRaw : c.staged = .rawDmx → c.canEditRaw = true
  staged_manual : c.mode = .manual → c.staged = .rawDmx
  staged_wheel : c.mode = .wheel → c.staged = .rainbow
  staged_preset : c.mode = .preset → c.staged = .preset
  channelIndex_lt : c.mode = .manual → ∀ f ∈ c.workingFixtures rig, c.channelIndex < f.count
  le_chaseDelay : Span.ofMillis 30 ≤ c.chaseDelay
  chaseDelay_le : c.chaseDelay ≤ Span.ofMillis 10000

theorem sameCounts_iff (fixtures : List Fixture) : sameCounts fixtures = true ↔
    ∀ f ∈ fixtures, ∀ g ∈ fixtures, f.count = g.count := by
  induction fixtures with
  | nil => simp [sameCounts]
  | cons f rest ih =>
    cases rest with
    | nil => simp [sameCounts]
    | cons g rest =>
      rw [sameCounts, Bool.and_eq_true, beq_iff_eq, ih]
      constructor
      · rintro ⟨hfg, h⟩ a ha b hb
        have hf : ∀ x ∈ g :: rest, f.count = x.count := fun x hx => hfg.trans (h g (by simp) x hx)
        rcases List.mem_cons.1 ha with ea | ha'
        · rcases List.mem_cons.1 hb with eb | hb'
          · rw [ea, eb]
          · rw [ea, hf b hb']
        · rcases List.mem_cons.1 hb with eb | hb'
          · rw [eb, hf a ha']
          · exact h a ha' b hb'
      · intro h
        exact ⟨h f (by simp) g (by simp), fun a ha b hb =>
          h a (List.mem_cons_of_mem f ha) b (List.mem_cons_of_mem f hb)⟩

variable {rig : List Fixture} {c : Controls}

theorem sound_start (rig : List Fixture) (delay : Nat) : Sound rig (start rig delay) where
  length_selected := by simp [start]
  unselected := by simp [start]
  cursor_lt := List.length_pos_iff.2
  rig_ne := by simp [start]
  presetIndex_lt := by simp [start]
  increasing := .nil
  workingSet_lt := by simp [start]
  workingSet_ne := nofun
  canEditRaw_iff := nofun
  canEditRaw := nofun
  staged_manual := nofun
  staged_wheel := nofun
  staged_preset := nofun
  channelIndex_lt := nofun
  le_chaseDelay := (Chase.clamp_bounds delay).1
  chaseDelay_le := (Chase.clamp_bounds delay).2

/-! ## Changing one thing -/

theorem sound_deselect (h : Sound rig c) : Sound rig c.deselect :=
  { h with
    length_selected := by simpa [deselect] using h.length_selected
    unselected := fun _ => by simp [deselect] }

/-- Going to a mode that asks no more of the choices than the mode that is left. -/
theorem sound_mode (h : Sound rig c) {mode : Mode} (hs : ∀ flag ∈ c.selected, flag = false)
    (hl : mode = .lights → rig ≠ []) (hc : mode.isCommitted → c.mode.isCommitted)
    (he : mode ≠ .manual ∧ mode ≠ .wheel ∧ mode ≠ .preset) : Sound rig { c with mode } :=
  { h with
    unselected := fun _ => hs
    rig_ne := hl
    workingSet_ne := fun hm => h.workingSet_ne (hc hm)
    canEditRaw_iff := fun hm => h.canEditRaw_iff (hc hm)
    staged_manual := fun hm => absurd hm he.1
    staged_wheel := fun hm => absurd hm he.2.1
    staged_preset := fun hm => absurd hm he.2.2
    channelIndex_lt := fun hm => absurd hm he.1 }

theorem rig_ne_of_committed (h : Sound rig c) (hc : c.mode.isCommitted) : rig ≠ [] := by
  obtain ⟨i, hi⟩ := List.exists_mem_of_ne_nil _ (h.workingSet_ne hc)
  have := h.workingSet_lt i hi
  exact List.ne_nil_of_length_pos (by omega)

theorem sound_chaseDelay (h : Sound rig c) {delay : Nat} (h1 : Span.ofMillis 30 ≤ delay)
    (h2 : delay ≤ Span.ofMillis 10000) : Sound rig { c with chaseDelay := delay } :=
  { h with
    le_chaseDelay := h1
    chaseDelay_le := h2 }

/-! ## Picking lights -/

theorem mem_picked (c : Controls) (rig : List Fixture) (i : Nat) :
    i ∈ c.picked rig ↔ i < rig.length ∧ (i = c.cursor ∨ c.isSelected i = true) := by
  simp [picked]

theorem sound_commitSelection (h : Sound rig c) (hl : c.mode = .lights) :
    Sound rig (c.commitSelection rig) :=
  { sound_deselect h with
    unselected := fun _ => by simp [commitSelection, deselect]
    rig_ne := nofun
    increasing := List.pairwise_lt_range.filter _
    workingSet_lt := fun i hi => ((mem_picked c rig i).1 hi).1
    workingSet_ne := fun _ => by
      -- the cursor's own fixture is always picked
      have := h.cursor_lt (h.rig_ne hl)
      exact List.ne_nil_of_mem ((mem_picked c rig c.cursor).2 ⟨this, .inl rfl⟩)
    canEditRaw_iff := fun _ => sameCounts_iff _
    canEditRaw := nofun
    staged_manual := nofun
    staged_wheel := nofun
    staged_preset := nofun
    channelIndex_lt := nofun }

theorem sound_cursor (h : Sound rig c) (turn : Turn) :
    Sound rig { c with cursor := turn.around rig.length c.cursor } :=
  { h with cursor_lt := fun hr => Turn.around_lt (List.length_pos_iff.2 hr) c.cursor turn }

theorem sound_toggle (h : Sound rig c) (hl : c.mode = .lights) :
    Sound rig { c with selected := c.selected.modify c.cursor not } :=
  { h with
    length_selected := by simpa using h.length_selected
    unselected := fun hn => absurd hl hn }

theorem sound_enterLights (h : Sound rig c) (hi : c.mode = .idle) (hr : rig ≠ []) :
    Sound rig { c with mode := .lights, cursor := min c.cursor (rig.length - 1) } := by
  have hl : Sound rig { c with mode := .lights } :=
    sound_mode h (h.unselected (by simp [hi])) (fun _ => hr) nofun (by simp)
  refine { hl with cursor_lt := fun _ => ?_ }
  have := List.length_pos_iff.2 hr
  dsimp only
  omega

/-! ## Staging and editing -/

theorem sound_restage (h : Sound rig c) (hm : c.mode = .staging) (turn : Turn) :
    Sound rig { c with staged := c.staged.around c.canEditRaw turn } :=
  { h with
    canEditRaw := fun hs => by
      cases turn <;> cases hc : c.staged <;> simp [Staged.around, hc] at hs <;> exact hs
    staged_manual := fun h' => by simp [hm] at h'
    staged_wheel := fun h' => by simp [hm] at h'
    staged_preset := fun h' => by simp [hm] at h' }

/-- Going from staging to an editing mode; in manual editing the first channel comes first. -/
theorem sound_edit (h : Sound rig c) (hm : c.mode = .staging) {mode : Mode} {index : Nat}
    (hmanual : mode = .manual → c.staged = .rawDmx ∧ index = 0)
    (hwheel : mode = .wheel → c.staged = .rainbow)
    (hpreset : mode = .preset → c.staged = .preset) :
    Sound rig { c with mode, channelIndex := index } := by
  have hs : c.mode.isCommitted := by rw [hm]; rfl
  exact { h with
    unselected := fun _ => h.unselected (by simp [hm])
    rig_ne := fun _ => rig_ne_of_committed h hs
    workingSet_ne := fun _ => h.workingSet_ne hs
    canEditRaw_iff := fun _ => h.canEditRaw_iff hs
    staged_manual := fun h' => (hmanual h').1
    staged_wheel := hwheel
    staged_preset := hpreset
    channelIndex_lt := fun h' f _ => (hmanual h').2 ▸ f.channels_pos }

theorem sound_commitStaged (h : Sound rig c) (hm : c.mode = .staging) :
    Sound rig c.commitStaged := by
  unfold commitStaged
  split
  · rename_i hs
    exact sound_edit h hm (fun _ => ⟨hs, rfl⟩) nofun nofun
  · rename_i hs
    exact sound_edit h hm nofun (fun _ => hs) nofun
  · rename_i hs
    exact sound_edit h hm nofun nofun fun _ => hs

/-- In manual editing all working fixtures have as many channels as are stepped through. -/
theorem count_eq_editableChannels (h : Sound rig c) (hm : c.mode = .manual) :
    ∀ f ∈ c.workingFixtures rig, f.count = c.editableChannels rig := by
  intro f hf
  have hall := (h.canEditRaw_iff (by rw [hm]; rfl)).1 (h.canEditRaw (h.staged_manual hm))
  unfold editableChannels
  cases hw : c.workingFixtures rig with
  | nil => rw [hw] at hf; cases hf
  | cons g rest => exact hall f hf g (by simp [hw])

theorem sound_turnChannel (h : Sound rig c) (hm : c.mode = .manual) (turn : Turn) :
    Sound rig (c.turnChannel rig turn) := by
  unfold turnChannel
  by_cases hn : c.editableChannels rig = 0
  · simp only [hn, if_true]
    exact h
  · simp only [hn, if_false]
    refine { h with channelIndex_lt := fun _ f hf => ?_ }
    rw [count_eq_editableChannels h hm f hf]
    exact Turn.around_lt (by omega) c.channelIndex turn

/-! ## Every move -/

theorem committed_of_edit {mode : Mode} (h : mode ∈ [Mode.wheel, .manual, .preset]) :
    mode.isCommitted := by
  cases mode <;> first | rfl | simp at h

/-- Back to picking lights, once a selection has been committed. -/
theorem sound_pickAgain (h : Sound rig c) (hm : c.mode.isCommitted) :
    Sound rig { c with mode := .lights } :=
  sound_mode h (h.unselected fun hl => by simp [hl, Mode.isCommitted] at hm)
    (fun _ => rig_ne_of_committed h hm) nofun (by simp)

/-- A move that can be asked for keeps the choices sound, if there are lights to be picked. -/
theorem sound_after (h : Sound rig c) {m : Move} (hm : c.mode ∈ m.modes)
    (hr : m = .enterLights → rig ≠ []) : Sound rig (c.after rig m) := by
  cases m with
  | scene | liveScene | saveScene | deleteScene | raise | lower | blackOut => exact h
  | enterLights => exact sound_enterLights h (by simpa [Move.modes] using hm) (hr rfl)
  | startChase =>
    have hi : c.mode = .idle := by simpa [Move.modes] using hm
    exact sound_mode h (h.unselected (by simp [hi])) nofun nofun (by simp)
  | enterShow chosen =>
    have hi : c.mode = .idle := by simpa [Move.modes] using hm
    have hn := h.unselected (by simp [hi])
    cases chosen <;> exact sound_mode h hn nofun nofun (by simp [MotionShow.mode])
  | cursor turn => exact sound_cursor h turn
  | toggle => exact sound_toggle h (by simpa [Move.modes] using hm)
  | clearSelection => exact sound_deselect h
  | commitSelection => exact sound_commitSelection h (by simpa [Move.modes] using hm)
  | leaveLights =>
    exact sound_mode (sound_deselect h) (by simp [deselect]) nofun nofun (by simp)
  | restage turn => exact sound_restage h (by simpa [Move.modes] using hm) turn
  | commitStaged => exact sound_commitStaged h (by simpa [Move.modes] using hm)
  | backToLights =>
    have hs : c.mode = .staging := by simpa [Move.modes] using hm
    exact sound_pickAgain h (by rw [hs]; rfl)
  | keepEdit => exact sound_pickAgain h (committed_of_edit hm)
  | dropEdit =>
    have hc := committed_of_edit hm
    exact sound_mode h (h.unselected fun hl => by simp [hl, Mode.isCommitted] at hc) nofun
      (fun _ => hc) (by simp)
  | channel turn => exact sound_turnChannel h (by simpa [Move.modes] using hm) turn
  | preset turn =>
    exact { h with presetIndex_lt := Turn.around_lt (n := Color.palette.length) (by decide) _ turn }
  | slower =>
    have h1 := h.le_chaseDelay
    refine sound_chaseDelay h ?_ ?_ <;> unfold delayStep Chase.maxDelay Span.ofMillis at * <;> omega
  | faster =>
    have h2 := h.chaseDelay_le
    refine sound_chaseDelay h ?_ ?_ <;> unfold delayStep Chase.minDelay Span.ofMillis at * <;> omega
  | stopChase =>
    have hi : c.mode = .chase := by simpa [Move.modes] using hm
    exact sound_mode h (h.unselected (by simp [hi])) nofun nofun (by simp)
  | leaveShow =>
    have hn : c.mode ≠ .lights := fun hl => by simp [hl, Move.modes] at hm
    exact sound_mode h (h.unselected hn) nofun nofun (by simp)

end Controls

namespace Desk

variable {σ : Type} [Sink σ]

theorem sound_step (d : Desk σ) (i : Input) (h : d.controls.Sound d.rig) :
    (d.step i).1.controls.Sound (d.step i).1.rig := by
  rw [rig_step]
  rcases controls_step d i with hc | ⟨m, hm, ha, hc⟩
  · rw [hc]
    exact h
  · rw [hc]
    refine Controls.sound_after h hm ?_
    intro he
    subst he
    simpa [allows] using ha

theorem sound_run {d : Desk σ} (h : d.controls.Sound d.rig) (inputs : List Input) :
    (d.run inputs).controls.Sound (d.run inputs).rig :=
  run_keeps (P := fun d : Desk σ => d.controls.Sound d.rig) sound_step h inputs

/-- The choices are sound after every run of a desk that has just been switched on: whatever its
sink makes of the writes, and whether or not an effect has failed to stop on the way. -/
theorem choices_sound (rig : List Fixture) (sink : σ) (scenes : SceneStore)
    (delay stopLimit : Nat) (dice : Nat → Color) (inputs : List Input) :
    ((start rig sink scenes delay stopLimit dice).run inputs).controls.Sound rig := by
  have h := sound_run (d := start rig sink scenes delay stopLimit dice)
    (Controls.sound_start rig delay) inputs
  rwa [rig_run] at h

end Desk

end LightingDesk
