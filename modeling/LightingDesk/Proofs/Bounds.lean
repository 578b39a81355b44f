import LightingDesk.Proofs.Channels

/-!
# Gestures keep to their fixture

A fixture that has been accepted cannot be asked for anything that leaves its own channels.
Whatever the gesture, sinks take it, every channel number that is computed for it is one of sixteen
bits, and no slot outside the frame is looked at.  To say the last two, sums of words and the slots
of a frame are given forms that fail where the plain ones would go on with something else.

    a gesture stays within the fixture's own channels         (staysIn_gesture)
    its channel numbers are computed without overflow         (channelWord?_eq)
    what fits is stored slot by slot without leaving a frame  (applyIn?_eq)
    any gesture of an accepted fixture                        (gesture_keeps_inside)
-/

namespace LightingDesk

/-! ## Checked words and slots -/

/-- The sum of two words, if sixteen bits hold it. -/
def addWord? (a b : UInt16) : Option UInt16 :=
  if a.toNat + b.toNat < 65536 then some (a + b) else none

theorem addWord?_ofNat {a b : Nat} (h : a + b < 65536) :
    ∃ word, addWord? a.toUInt16 b.toUInt16 = some word ∧ word.toNat = a + b := by
  have ha : a.toUInt16.toNat = a := by simp; omega
  have hb : b.toUInt16.toNat = b := by simp; omega
  refine ⟨a.toUInt16 + b.toUInt16, ?_, ?_⟩
  · rw [addWord?, if_pos (by omega)]
  · rw [UInt16.toNat_add, ha, hb]
    omega

namespace Frame

/-- The levels of consecutive slots, if the frame has them all. -/
def read? (f : Frame) (start count : Nat) : Option (List UInt8) :=
  (List.range count).mapM fun i => f.levels[start + i]?

/-- Stores levels in consecutive slots, if the frame has them all. -/
def store? (f : Frame) (start : Nat) : List UInt8 → Option Frame
  | [] => some f
  | v :: vs => if start < 513 then (f.put start v).store? (start + 1) vs else none

/-- The frame after a write that leaves no slot out. -/
def applyIn? (f : Frame) : Write → Option Frame
  | .run address values => f.store? address values
  | .whole g => some g.grounded

theorem read?_eq (f : Frame) {start count : Nat} (h : start + count ≤ 513) :
    f.read? start count = some (f.slice start count) := by
  have slot : ∀ i ∈ List.range count, f.levels[start + i]? = some (f.level (start + i)) := by
    intro i hi
    have hlt : start + i < 513 := by
      rw [List.mem_range] at hi
      omega
    rw [level_of_lt f hlt]
    exact Vector.getElem?_eq_getElem hlt
  unfold read? slice
  generalize List.range count = slots at slot
  induction slots with
  | nil => rfl
  | cons i rest ih =>
    rw [List.mapM_cons, slot i (.head _), ih fun j hj => slot j (.tail _ hj)]
    rfl

theorem store?_eq (f : Frame) {start : Nat} {values : List UInt8}
    (h : start + values.length ≤ 513) : f.store? start values = some (f.store start values) := by
  induction values generalizing f start with
  | nil => rfl
  | cons v vs ih =>
    rw [List.length_cons] at h
    rw [store?, if_pos (by omega), store]
    exact ih _ (by omega)

theorem applyIn?_eq (f : Frame) {w : Write} (h : w.check = .ok ()) :
    f.applyIn? w = some (f.apply w) := by
  cases w with
  | run address values => exact f.store?_eq ((checkRun_eq_ok_iff _ _).1 h).2.2
  | whole g => rfl

theorem foldlM_applyIn? (f : Frame) {job : Job} (h : job.Fits) :
    job.foldlM Frame.applyIn? f = some (job.foldl Frame.apply f) := by
  induction job generalizing f with
  | nil => rfl
  | cons w rest ih =>
    rw [List.foldlM_cons, applyIn?_eq f (h w (.head _))]
    exact ih _ fun w' hw => h w' (.tail _ hw)

end Frame

/-! ## Gestures -/

/-- What can be asked of a fixture. -/
inductive Gesture
  | values (levels : List UInt8)
  | channel (offset : Nat) (level : UInt8)
  | dimmer (level : UInt8)
  | color (color : Color)
  | white (level : UInt8)
  | clear
deriving DecidableEq, Repr

/-- Whether a write is a run that is not empty. -/
def Write.IsRun (w : Write) : Prop := ∃ address values, w = .run address values ∧ 0 < values.length

namespace Fixture

/-- The writes that a gesture is made of. -/
def gesture (f : Fixture) : Gesture → Job
  | .values levels => f.setValues levels
  | .channel offset level => f.setChannel offset level
  | .dimmer level => f.setDimmer level
  | .color color => f.setColor color
  | .white level => f.setWhite level
  | .clear => f.clear

/-- The number of the fixture's channel at an offset, computed in words. -/
def channelWord? (f : Fixture) (offset : Nat) : Option UInt16 :=
  addWord? f.address.toUInt16 offset.toUInt16

variable {f : Fixture}

theorem channelWord?_eq {offset : Nat} (h : offset < f.count) :
    ∃ word, f.channelWord? offset = some word ∧ word.toNat = f.address + offset :=
  addWord?_ofNat (Nat.lt_trans (le_of_owns (owns_add h)).2 (by decide))

theorem owns_of_colorAt {c : Nat} (h : f.ColorAt c) : f.Owns c := by
  rcases h.2 with h | h | h <;> exact owns_of_hasAt h

theorem owns_of_whiteAt {c : Nat} (h : f.WhiteAt c) : f.Owns c := by
  rcases h with h | ⟨-, h⟩
  · exact owns_of_hasAt h
  · exact owns_of_colorAt h

theorem staysIn_gesture (f : Fixture) (g : Gesture) : (f.gesture g).StaysIn f.Owns := by
  cases g with
  | values levels => exact staysIn_setValues f levels
  | channel offset level =>
    exact (staysIn_setChannel f offset level).mono fun _ hc => hc.2 ▸ owns_add hc.1
  | dimmer level => exact (staysIn_setDimmer f level).mono fun _ => owns_of_hasAt
  | color color => exact (staysIn_setColor f color).mono fun _ => owns_of_colorAt
  | white level => exact (staysIn_setWhite f level).mono fun _ => owns_of_whiteAt
  | clear => exact staysIn_setValues f _

theorem isRun_setChannel {offset : Nat} {v : UInt8} {w : Write} (h : w ∈ f.setChannel offset v) :
    w.IsRun := by
  unfold setChannel at h
  split at h
  · exact ⟨_, [v], List.mem_singleton.1 h, by simp⟩
  · cases h

theorem isRun_setColor {color : Color} {w : Write} (h : w ∈ f.setColor color) : w.IsRun := by
  unfold setColor at h
  split at h
  · cases h
  · split at h
    · exact ⟨_, _, List.mem_singleton.1 h, by simp⟩
    · rcases List.mem_append.1 h with h | h
      · rcases List.mem_append.1 h with h | h <;> exact isRun_setChannel h
      · exact isRun_setChannel h

theorem isRun_setValues {levels : List UInt8} {w : Write} (h : w ∈ f.setValues levels) :
    w.IsRun := by
  obtain ⟨a, vs, hw, hv, -⟩ := mem_runs h
  exact ⟨a, vs, hw, hv⟩

theorem isRun_gesture {g : Gesture} {w : Write} (h : w ∈ f.gesture g) : w.IsRun := by
  cases g with
  | values levels => exact isRun_setValues h
  | channel offset level => exact isRun_setChannel h
  | dimmer level =>
    unfold gesture setDimmer at h
    dsimp only at h
    split at h
    · exact isRun_setChannel h
    · cases h
  | color color => exact isRun_setColor h
  | white level =>
    unfold gesture setWhite at h
    dsimp only at h
    split at h
    · exact isRun_setChannel h
    · exact isRun_setColor h
  | clear => exact isRun_setValues h

/-- Each write of a gesture begins at a channel whose number is computed without overflow, and ends
with the fixture. -/
theorem spot_of_mem_gesture {g : Gesture} {w : Write} (h : w ∈ f.gesture g) :
    ∃ offset word values, f.channelWord? offset = some word ∧ word.toNat = f.address + offset ∧
      w = .run word.toNat values ∧ values.length ≤ maxRun ∧ offset + values.length ≤ f.count := by
  have stays := staysIn_gesture f g
  obtain ⟨address, values, rfl, hv⟩ := isRun_gesture h
  have first := stays.touches address ⟨_, h, Nat.le_refl _, by omega⟩
  have last := stays.touches (address + (values.length - 1)) ⟨_, h, by omega, by omega⟩
  have fits := (checkRun_eq_ok_iff _ _).1 (stays.fits _ h)
  obtain ⟨h1, h2⟩ := first
  have h3 := last.2
  unfold stop at h2 h3
  have within : address - f.address < f.count := by omega
  obtain ⟨word, computed, hword⟩ := channelWord?_eq within
  have ha : word.toNat = address := by omega
  exact ⟨address - f.address, word, values, computed, hword, by rw [ha], fits.1, by omega⟩

/-- Whatever is asked of an accepted fixture, the sink does it: no number of a channel overflows, no
slot outside the frame is written or read, and only the fixture's own channels change.  What it
shows is read from these. -/
theorem gesture_keeps_inside {name : String} {address : Nat} {channels : List String} {f : Fixture}
    (built : build name address channels = .ok f) (g : Gesture) (frame : Frame) (author : Author) :
    ∃ after, Sink.perform frame author (f.gesture g) = (after, .ok ()) ∧
      (f.gesture g).foldlM Frame.applyIn? frame = some after ∧
      (∀ w ∈ f.gesture g, ∃ offset word values, f.channelWord? offset = some word ∧
        word.toNat = address + offset ∧ w = .run word.toNat values ∧
        values.length ≤ maxRun ∧ offset + values.length ≤ channels.length) ∧
      (∀ c, c < address ∨ address + channels.length ≤ c → after.level c = frame.level c) ∧
      after.level 0 = frame.level 0 ∧
      frame.read? address channels.length = some (f.values frame) := by
  obtain ⟨-, -, rfl, rfl⟩ := (build_eq_ok_iff _ _ _ _).1 built
  have stays := staysIn_gesture f g
  have outside : ∀ c, c < f.address ∨ f.address + f.count ≤ c →
      ((f.gesture g).foldl Frame.apply frame).level c = frame.level c := by
    intro c hc
    refine level_foldl_apply frame fun touched => ?_
    obtain ⟨h1, h2⟩ := stays.touches c touched
    unfold stop at h2
    omega
  have first := f.address_pos
  exact ⟨_, perform_frame frame author _ stays.fits, Frame.foldlM_applyIn? frame stays.fits,
    fun w hw => spot_of_mem_gesture hw, outside, outside 0 (.inl first),
    Frame.read?_eq frame f.fits⟩

/-- A wash on the last channels of the universe. -/
def lastWash : Fixture where
  name := "wash"
  address := 508
  channels := ["dimmer", "blue", "strobe", "red", "green"]
  name_ne := by decide
  channels_pos := by decide
  address_pos := by decide
  fits := by decide
  named := by decide
  distinct := by decide

theorem gesture_keeps_inside_lastWash :
    build "wash" 508 ["dimmer", "blue", "strobe", "red", "green"] = .ok lastWash ∧
      ∃ after, Sink.perform (Frame.dark.put 507 9) .desk
          (lastWash.gesture (.values [1, 2, 3, 4, 5, 6, 7])) = (after, .ok ()) ∧
        after.level 507 = 9 := by
  have built : build "wash" 508 ["dimmer", "blue", "strobe", "red", "green"] = .ok lastWash := by
    rw [build_eq_ok_iff, Valid]
    decide
  obtain ⟨after, done, -, -, outside, -⟩ :=
    gesture_keeps_inside built (.values [1, 2, 3, 4, 5, 6, 7]) (Frame.dark.put 507 9) .desk
  refine ⟨built, after, done, ?_⟩
  rw [outside 507 (by decide), Frame.level_put]
  decide

end Fixture

end LightingDesk
