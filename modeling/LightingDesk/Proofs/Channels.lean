import LightingDesk.Proofs.Writes
import LightingDesk.Rig.Gesture
import LightingDesk.Rig.Plot

/-!
# The channels of a gesture

Every gesture fits, and touches only the channels of the fixture that it is for: the dimmer, the
three that carry color, the white one, or any of the fixture's own.

    a gesture stays within its channels                  (staysIn_setDimmer, staysIn_setColor, ...)
    levels given to a whole fixture are what it shows    (level_setValues)
    jobs for each of some fixtures do what each does     (level_after_map)
-/

namespace LightingDesk

/-! ## Runs -/

/-- Runs are narrow but not empty, and stay between the ends of the levels they carry. -/
theorem mem_runs {address : Nat} {values : List UInt8} {w : Write} (h : w ∈ runs address values) :
    ∃ a vs, w = .run a vs ∧ 0 < vs.length ∧ vs.length ≤ 4 ∧ address ≤ a ∧
      a + vs.length ≤ address + values.length := by
  fun_induction runs address values with
  | case1 => cases h
  | case2 address v rest ih =>
    rcases List.mem_cons.1 h with rfl | h
    · refine ⟨address, v :: rest.take (maxRun - 1), rfl, by simp, ?_, Nat.le_refl _, ?_⟩
      · rw [List.length_cons, List.length_take, maxRun]
        omega
      · rw [List.length_cons, List.length_cons, List.length_take]
        omega
    · obtain ⟨a, vs, rfl, h0, h1, h2, h3⟩ := ih h
      rw [List.length_drop] at h3
      unfold maxRun at h2 h3
      refine ⟨a, vs, rfl, h0, h1, by omega, ?_⟩
      rw [List.length_cons]
      omega

theorem store_append (f : Frame) (start : Nat) (vs ws : List UInt8) :
    f.store start (vs ++ ws) = (f.store start vs).store (start + vs.length) ws := by
  induction vs generalizing f start with
  | nil => rfl
  | cons v vs ih =>
    rw [List.cons_append, Frame.store, ih, Frame.store, List.length_cons,
      show start + 1 + vs.length = start + (vs.length + 1) by omega]

/-- Cut into runs, levels change a frame as they do in one piece. -/
theorem foldl_apply_runs (f : Frame) (address : Nat) (values : List UInt8) :
    (runs address values).foldl Frame.apply f = f.store address values := by
  fun_induction runs address values generalizing f with
  | case1 => rfl
  | case2 address v rest ih =>
    rw [List.foldl_cons, ih]
    -- a run that is not full is the last one, so what follows starts right behind a full one
    have hsplit : v :: rest = (v :: rest.take (maxRun - 1)) ++ rest.drop (maxRun - 1) := by
      rw [List.cons_append, List.take_append_drop]
    conv => rhs; rw [hsplit, store_append]
    by_cases hlen : maxRun - 1 ≤ rest.length
    · have : (v :: rest.take (maxRun - 1)).length = maxRun := by
        rw [List.length_cons, List.length_take, Nat.min_eq_left hlen]
        rfl
      rw [this]
      rfl
    · rw [List.drop_eq_nil_of_le (by omega)]
      rfl

namespace Fixture

/-- Whether channel `c` is one of the fixture's own. -/
def Owns (f : Fixture) (c : Nat) : Prop := f.address ≤ c ∧ c < f.stop

/-- Whether channel `c` is the fixture's channel of a name. -/
def HasAt (f : Fixture) (channel : String) (c : Nat) : Prop :=
  ∃ i, f.offset channel = some i ∧ c = f.address + i

/-- Whether channel `c` carries red, green or blue of a fixture that has all three. -/
def ColorAt (f : Fixture) (c : Nat) : Prop :=
  f.rgb.isSome ∧ (f.HasAt "red" c ∨ f.HasAt "green" c ∨ f.HasAt "blue" c)

/-- Whether channel `c` is lit when the fixture has to show white. -/
def WhiteAt (f : Fixture) (c : Nat) : Prop :=
  f.HasAt "white" c ∨ f.offset "white" = none ∧ f.ColorAt c

/-- Whether channel `c` is lit when the fixture has to be seen without any color. -/
def DefaultColorAt (f : Fixture) (c : Nat) : Prop :=
  ∃ i, f.defaultColor = some i ∧ c = f.address + i

/-- Fixtures without a channel in common. -/
def Apart (f g : Fixture) : Prop := ∀ c, f.Owns c → ¬ g.Owns c

variable {f : Fixture}

theorem offset_lt {channel : String} {i : Nat} (h : f.offset channel = some i) : i < f.count := by
  obtain ⟨hi, -, -⟩ := List.idxOf?_eq_some_iff.1 h
  exact hi

theorem owns_add {i : Nat} (h : i < f.count) : f.Owns (f.address + i) :=
  ⟨by omega, by unfold stop; omega⟩

theorem owns_of_hasAt {channel : String} {c : Nat} (h : f.HasAt channel c) : f.Owns c := by
  obtain ⟨i, hi, rfl⟩ := h
  exact owns_add (offset_lt hi)

/-- A channel has one name. -/
theorem hasAt_unique {a b : String} {c : Nat} (ha : f.HasAt a c) (hb : f.HasAt b c) : a = b := by
  obtain ⟨i, hi, rfl⟩ := ha
  obtain ⟨j, hj, he⟩ := hb
  have hij : i = j := by omega
  subst hij
  obtain ⟨_, ha, -⟩ := List.idxOf?_eq_some_iff.1 hi
  obtain ⟨_, hb, -⟩ := List.idxOf?_eq_some_iff.1 hj
  exact ha.symm.trans hb

theorem owns_of_defaultColorAt {c : Nat} (h : f.DefaultColorAt c) : f.Owns c := by
  obtain ⟨i, hi, rfl⟩ := h
  obtain ⟨channel, -, h⟩ := List.exists_of_findSome?_eq_some hi
  exact owns_add (offset_lt h)

/-- The fixture's own channels are channels of the universe. -/
theorem le_of_owns {c : Nat} (h : f.Owns c) : 1 ≤ c ∧ c < 513 := by
  have h1 := f.address_pos
  have h2 := f.fits
  have h3 := h.1
  have h4 := h.2
  unfold stop count at h4
  omega

theorem apart_of_stop_le {g : Fixture} (h : f.stop ≤ g.address) : f.Apart g := by
  intro c hf hg
  have h1 := hf.2
  have h2 := hg.1
  omega

theorem apart_of_ne {rig : List Fixture} (h : rig.Pairwise Apart) {i j : Nat}
    {g : Fixture} (hi : rig[i]? = some f) (hj : rig[j]? = some g) (hne : i ≠ j) : f.Apart g := by
  obtain ⟨hi', rfl⟩ := List.getElem?_eq_some_iff.1 hi
  obtain ⟨hj', rfl⟩ := List.getElem?_eq_some_iff.1 hj
  have hp := List.pairwise_iff_getElem.1 h
  rcases Nat.lt_or_gt_of_ne hne with hlt | hlt
  · exact hp i j hi' hj' hlt
  · intro c hc hc'
    exact hp j i hj' hi' hlt c hc' hc

/-! ## Gestures -/

theorem staysIn_run {address : Nat} {values : List UInt8} (hn : values.length ≤ 4)
    (hv : 0 < values.length) (ho : ∀ i < values.length, f.Owns (address + i)) {P : Nat → Prop}
    (hP : ∀ i < values.length, P (address + i)) : Job.StaysIn [.run address values] P := by
  constructor
  · intro w hw
    rw [List.mem_singleton.1 hw]
    have h1 := le_of_owns (ho 0 hv)
    have h2 := le_of_owns (ho (values.length - 1) (by omega))
    exact (checkRun_eq_ok_iff _ _).2 ⟨hn, by omega, by omega⟩
  · rintro c ⟨w, hw, hc⟩
    rw [List.mem_singleton.1 hw] at hc
    obtain ⟨h1, h2⟩ := hc
    have := hP (c - address) (by omega)
    rwa [show address + (c - address) = c by omega] at this

theorem staysIn_setChannel (f : Fixture) (i : Nat) (v : UInt8) :
    (f.setChannel i v).StaysIn fun c => i < f.count ∧ c = f.address + i := by
  unfold setChannel
  split
  · rename_i hi
    refine staysIn_run (f := f) (by simp) (by simp) ?_ ?_
    · intro k hk
      rw [show k = 0 by simpa using hk]
      exact owns_add hi
    · intro k hk
      exact ⟨hi, by simpa using hk⟩
  · exact Job.staysIn_nil _

theorem staysIn_setNamed (f : Fixture) {channel : String} {i : Nat}
    (h : f.offset channel = some i) (v : UInt8) : (f.setChannel i v).StaysIn (f.HasAt channel) :=
  (staysIn_setChannel f i v).mono fun _ hc => ⟨i, h, hc.2⟩

theorem staysIn_setDimmer (f : Fixture) (v : UInt8) :
    (f.setDimmer v).StaysIn (f.HasAt "dimmer") := by
  unfold setDimmer
  split
  · rename_i i hi
    exact staysIn_setNamed f hi v
  · exact Job.staysIn_nil _

theorem rgb_eq_some_iff {r g b : Nat} : f.rgb = some (r, g, b) ↔
    f.offset "red" = some r ∧ f.offset "green" = some g ∧ f.offset "blue" = some b := by
  unfold rgb
  constructor
  · intro h
    split at h
    · cases h
      exact ⟨‹_›, ‹_›, ‹_›⟩
    · cases h
  · rintro ⟨h1, h2, h3⟩
    rw [h1, h2, h3]

theorem staysIn_setColor (f : Fixture) (color : Color) : (f.setColor color).StaysIn f.ColorAt := by
  unfold setColor
  split
  · exact Job.staysIn_nil _
  · rename_i r g b h
    obtain ⟨hr, hg, hb⟩ := rgb_eq_some_iff.1 h
    have hs : f.rgb.isSome := by rw [h]; rfl
    split
    · rename_i hside
      obtain ⟨rfl, rfl⟩ := hside
      have hlt := offset_lt hb
      refine staysIn_run (f := f) (by simp) (by simp) ?_ ?_
      · intro k hk
        rw [Nat.add_assoc]
        have : k < 3 := hk
        exact owns_add (by omega)
      · intro k hk
        rw [Nat.add_assoc]
        match k, hk with
        | 0, _ => exact ⟨hs, .inl ⟨r, hr, rfl⟩⟩
        | 1, _ => exact ⟨hs, .inr (.inl ⟨r + 1, hg, rfl⟩)⟩
        | 2, _ => exact ⟨hs, .inr (.inr ⟨r + 2, hb, rfl⟩)⟩
    · have h1 := (staysIn_setNamed f hr color.red).mono fun c hc => (⟨hs, .inl hc⟩ : f.ColorAt c)
      have h2 := (staysIn_setNamed f hg color.green).mono
        fun c hc => (⟨hs, .inr (.inl hc)⟩ : f.ColorAt c)
      have h3 := (staysIn_setNamed f hb color.blue).mono
        fun c hc => (⟨hs, .inr (.inr hc)⟩ : f.ColorAt c)
      exact (h1.append h2).append h3

theorem staysIn_setWhite (f : Fixture) (v : UInt8) : (f.setWhite v).StaysIn f.WhiteAt := by
  unfold setWhite
  split
  · rename_i i hi
    exact (staysIn_setNamed f hi v).mono fun _ hc => .inl hc
  · rename_i hn
    exact (staysIn_setColor f .white).mono fun _ hc => .inr ⟨hn, hc⟩

theorem staysIn_setValues (f : Fixture) (values : List UInt8) :
    (f.setValues values).StaysIn f.Owns := by
  unfold setValues
  have hlen : (values.take f.count).length ≤ f.count := List.length_take_le _ _
  have hfits := f.fits
  have hpos := f.address_pos
  constructor
  · intro w hw
    obtain ⟨a, vs, rfl, h0, h1, h2, h3⟩ := mem_runs hw
    exact (checkRun_eq_ok_iff _ _).2 ⟨h1, by omega, by unfold count at *; omega⟩
  · rintro c ⟨w, hw, hc⟩
    obtain ⟨a, vs, rfl, h0, h1, h2, h3⟩ := mem_runs hw
    obtain ⟨h4, h5⟩ := hc
    exact ⟨by omega, by unfold stop; omega⟩

theorem level_setChannel {i : Nat} (hi : i < f.count) (v : UInt8) (g : Frame) :
    ((f.setChannel i v).foldl Frame.apply g).level (f.address + i) = v := by
  have hlt : f.address + i < 513 := (le_of_owns (owns_add hi)).2
  rw [setChannel, if_pos hi, List.foldl_cons, List.foldl_nil, Frame.apply, Frame.level_store,
    if_pos ⟨Nat.le_refl _, hlt⟩, Nat.sub_self]
  rfl

theorem getElem?_values {i : Nat} (hi : i < f.count) (frame : Frame) :
    (f.values frame)[i]? = some (frame.level (f.address + i)) := by
  simp [values, Frame.slice, hi]

/-- A fixture that is given a level for each of its channels shows them. -/
theorem level_setValues (f : Fixture) (frame g : Frame) {c : Nat} (h : f.Owns c) :
    ((f.setValues (f.values g)).foldl Frame.apply frame).level c = g.level c := by
  obtain ⟨h1, h2⟩ := h
  have hc := le_of_owns ⟨h1, h2⟩
  unfold stop at h2
  have hlen : (f.values g).length = f.count := by simp [values]
  unfold setValues
  rw [List.take_of_length_le (by omega), foldl_apply_runs, Frame.level_store, if_pos ⟨h1, hc.2⟩]
  have hi : c - f.address < f.count := by omega
  simp [values, Frame.slice, hi, show f.address + (c - f.address) = c by omega]

/-- Fixtures show the same where frames do. -/
theorem values_congr (f : Fixture) {frame g : Frame}
    (h : ∀ c, f.Owns c → frame.level c = g.level c) : f.values frame = f.values g := by
  unfold values Frame.slice
  refine List.map_congr_left ?_
  intro i hi
  exact h _ (owns_add (List.mem_range.1 hi))

theorem values_agreeOff {P : Nat → Prop} {frame g : Frame} (h : frame.AgreeOff P g)
    (hP : ∀ c, f.Owns c → ¬ P c) : f.values frame = f.values g := by
  refine f.values_congr fun c hc => h c ?_ ?_ (hP c hc)
  · exact (le_of_owns hc).1
  · have := (le_of_owns hc).2
    unfold universeSize
    omega

end Fixture

/-! ## Jobs for each fixture -/

/-- Where every fixture has a job that gives some channels new levels, all of them have these. -/
theorem level_after_map (fixtures : List Fixture) {job : Fixture → Job}
    {P : Fixture → Nat → Prop} {v : Nat → UInt8}
    (gives : ∀ f ∈ fixtures, ∀ (g : Frame) c, P f c → ((job f).foldl Frame.apply g).level c = v c)
    (stays : ∀ f ∈ fixtures, ∀ c, (job f).touches c → P f c) (g : Frame) (c : Nat)
    [∀ f c, Decidable (P f c)] :
    (g.after (fixtures.map job)).level c =
      if ∃ f ∈ fixtures, P f c then v c else g.level c := by
  induction fixtures generalizing g with
  | nil => simp [Frame.after]
  | cons f rest ih =>
    have hf := List.mem_cons_self (a := f) (l := rest)
    have later := ih (fun f' hf' => gives f' (List.mem_cons_of_mem f hf'))
      (fun f' hf' => stays f' (List.mem_cons_of_mem f hf')) ((job f).foldl Frame.apply g)
    rw [List.map_cons, Frame.after_cons, later]
    by_cases hr : ∃ f' ∈ rest, P f' c
    · have hall : ∃ f' ∈ f :: rest, P f' c := by
        obtain ⟨f', hf', hc⟩ := hr
        exact ⟨f', List.mem_cons_of_mem f hf', hc⟩
      rw [if_pos hr, if_pos hall]
    · rw [if_neg hr]
      by_cases hc : P f c
      · rw [if_pos ⟨f, hf, hc⟩, gives f hf g c hc]
      · have hall : ¬ ∃ f' ∈ f :: rest, P f' c := by
          rintro ⟨f', hf', hc'⟩
          rcases List.mem_cons.1 hf' with rfl | hf'
          · exact hc hc'
          · exact hr ⟨f', hf', hc'⟩
        rw [if_neg hall]
        exact level_foldl_apply g fun ht => hc (stays f hf c ht)

end LightingDesk
