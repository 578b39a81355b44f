import LightingDesk.Proofs.Channels

/-!
# Colors, channel by channel

A color goes out in one write where red, green and blue stand side by side, and else in three.  It
makes no difference which: writes that have no channel in common can be made in any order, and
channels with different names are different ones.

    writes without a common channel can be exchanged     (apply_comm)
    a channel is found by its name                       (offset_eq_some_iff)
    one write of a color does what three do              (foldl_setColor)
    what a color changes, and what it leaves alone       (setColor_tints)
-/

namespace LightingDesk

/-! ## Writes in any order -/

/-- Whether writes have no channel in common. -/
def Write.Apart (w w' : Write) : Prop := ∀ c, w.touches c → ¬ w'.touches c

theorem Write.apart_single {a a' : Nat} (h : a ≠ a') (v v' : UInt8) :
    Write.Apart (.run a [v]) (.run a' [v']) := by
  rintro c ⟨h1, h2⟩ ⟨h3, h4⟩
  rw [List.length_singleton] at h2 h4
  omega

/-- What a write leaves where it touches does not depend on what was there. -/
theorem level_apply_of_touches {w : Write} {c : Nat} (h : w.touches c) (g g' : Frame) :
    (g.apply w).level c = (g'.apply w).level c := by
  cases w with
  | run address values =>
    obtain ⟨h1, h2⟩ := h
    have hget := List.getElem?_eq_getElem (l := values) (i := c - address) (by omega)
    rw [Frame.apply, Frame.apply, Frame.level_store, Frame.level_store, hget]
    by_cases hc : c < 513
    · rw [if_pos ⟨h1, hc⟩, if_pos ⟨h1, hc⟩]
      rfl
    · rw [Frame.level_of_ge g (by omega), Frame.level_of_ge g' (by omega)]
  | whole f => rfl

theorem apply_comm {w w' : Write} (apart : w.Apart w') (g : Frame) :
    (g.apply w).apply w' = (g.apply w').apply w := by
  refine Frame.ext_level fun c _ => ?_
  by_cases h : w.touches c
  · rw [level_apply _ (apart c h)]
    exact level_apply_of_touches h _ _
  · rw [level_apply (g.apply w') h]
    by_cases h' : w'.touches c
    · exact level_apply_of_touches h' _ _
    · rw [level_apply _ h', level_apply _ h', level_apply _ h]

/-- Writes of which no two have a channel in common do the same in any order. -/
theorem foldl_apply_perm {job job' : Job} (perm : job.Perm job') (apart : job.Pairwise Write.Apart)
    (g : Frame) : job.foldl Frame.apply g = job'.foldl Frame.apply g := by
  refine perm.foldl_eq' (fun w hw w' hw' => ?_) g
  -- exchanging is symmetric, and a write can be exchanged with itself
  refine List.Pairwise.forall_of_forall_of_flip
    (R := fun w w' => ∀ g : Frame, (g.apply w).apply w' = (g.apply w').apply w)
    (fun _ _ _ => rfl) ?_ ?_ hw hw'
  · exact apart.imp apply_comm
  · exact apart.imp fun h g => (apply_comm h g).symm

namespace Fixture

variable {f : Fixture}

/-! ## Channels by name -/

/-- The channel of a name is the only one that has it. -/
theorem offset_eq_some_iff {channel : String} {i : Nat} :
    f.offset channel = some i ↔ f.channels[i]? = some channel := by
  rw [offset, List.idxOf?_eq_some_iff, List.getElem?_eq_some_iff]
  constructor
  · rintro ⟨hi, hc, -⟩
    exact ⟨hi, hc⟩
  · rintro ⟨hi, rfl⟩
    refine ⟨hi, rfl, fun j hj he => ?_⟩
    have same : j = i := by
      rw [← List.getElem?_inj (by omega) f.distinct, List.getElem?_eq_getElem (by omega),
        List.getElem?_eq_getElem hi, he]
    omega

theorem offset_eq_none_iff {channel : String} :
    f.offset channel = none ↔ channel ∉ f.channels := by
  rw [offset, List.idxOf?_eq_none_iff]

theorem rgb_eq_none_iff :
    f.rgb = none ↔ "red" ∉ f.channels ∨ "green" ∉ f.channels ∨ "blue" ∉ f.channels := by
  rw [← offset_eq_none_iff, ← offset_eq_none_iff, ← offset_eq_none_iff]
  unfold rgb
  cases f.offset "red" <;> cases f.offset "green" <;> cases f.offset "blue" <;> simp

/-! ## Colors -/

theorem setChannel_of_lt {i : Nat} (hi : i < f.count) (v : UInt8) :
    f.setChannel i v = [.run (f.address + i) [v]] := if_pos hi

/-- The three writes of a color, one for each channel. -/
def singles (f : Fixture) (color : Color) (r g b : Nat) : List Job :=
  [f.setChannel r color.red, f.setChannel g color.green, f.setChannel b color.blue]

/-- One write of a color does what three do. -/
theorem foldl_setColor {r g b : Nat} (h : f.rgb = some (r, g, b)) (color : Color) (frame : Frame) :
    (f.setColor color).foldl Frame.apply frame =
      (f.singles color r g b).flatten.foldl Frame.apply frame := by
  obtain ⟨hr, hg, hb⟩ := rgb_eq_some_iff.1 h
  unfold setColor singles
  simp only [h]
  split
  · rename_i side
    obtain ⟨rfl, rfl⟩ := side
    rw [setChannel_of_lt (offset_lt hr), setChannel_of_lt (offset_lt hg),
      setChannel_of_lt (offset_lt hb)]
    rfl
  · simp

variable {r g b : Nat}

/-- Red, green and blue are three channels. -/
theorem rgb_distinct (h : f.rgb = some (r, g, b)) : r ≠ g ∧ r ≠ b ∧ g ≠ b := by
  have ne : ∀ {channel channel' i j}, f.offset channel = some i → f.offset channel' = some j →
      channel ≠ channel' → i ≠ j :=
    fun hi hj hne e => hne (hasAt_unique ⟨_, hi, rfl⟩ ⟨_, hj, by rw [e]⟩)
  obtain ⟨hr, hg, hb⟩ := rgb_eq_some_iff.1 h
  exact ⟨ne hr hg (by decide), ne hr hb (by decide), ne hg hb (by decide)⟩

theorem flatten_singles (h : f.rgb = some (r, g, b)) (color : Color) :
    (f.singles color r g b).flatten = [.run (f.address + r) [color.red],
      .run (f.address + g) [color.green], .run (f.address + b) [color.blue]] := by
  obtain ⟨hr, hg, hb⟩ := rgb_eq_some_iff.1 h
  rw [singles, setChannel_of_lt (offset_lt hr), setChannel_of_lt (offset_lt hg),
    setChannel_of_lt (offset_lt hb)]
  rfl

/-- The three writes go to three channels. -/
theorem apart_singles (h : f.rgb = some (r, g, b)) (color : Color) :
    (f.singles color r g b).flatten.Pairwise Write.Apart := by
  obtain ⟨hrg, hrb, hgb⟩ := rgb_distinct h
  have apart : ∀ {i j : Nat}, i ≠ j → ∀ v v' : UInt8,
      Write.Apart (.run (f.address + i) [v]) (.run (f.address + j) [v']) :=
    fun hne => Write.apart_single fun e => hne (Nat.add_left_cancel e)
  rw [flatten_singles h]
  simp [apart hrg, apart hrb, apart hgb]

theorem fits_singles (f : Fixture) (color : Color) (r g b : Nat) :
    Job.Fits (f.singles color r g b).flatten := by
  intro w hw
  simp only [singles, List.flatten_cons, List.flatten_nil, List.append_nil, List.mem_append] at hw
  obtain hw | hw | hw := hw <;> exact (f.staysIn_setChannel _ _).fits w hw

/-- The three channels take the levels of the color, and all others keep theirs. -/
theorem level_singles (h : f.rgb = some (r, g, b)) (color : Color) (frame : Frame) :
    let after := (f.singles color r g b).flatten.foldl Frame.apply frame
    after.level (f.address + r) = color.red ∧ after.level (f.address + g) = color.green ∧
      after.level (f.address + b) = color.blue ∧
      ∀ c, c ≠ f.address + r → c ≠ f.address + g → c ≠ f.address + b →
        after.level c = frame.level c := by
  intro after
  obtain ⟨hr, hg, hb⟩ := rgb_eq_some_iff.1 h
  obtain ⟨hrg, hrb, hgb⟩ := rgb_distinct h
  have inside : ∀ {channel i}, f.offset channel = some i → f.address + i < 513 :=
    fun hi => (le_of_owns (owns_add (offset_lt hi))).2
  have puts : after = ((frame.put (f.address + r) color.red).put (f.address + g) color.green).put
      (f.address + b) color.blue := by
    show (f.singles color r g b).flatten.foldl Frame.apply frame = _
    rw [flatten_singles h]
    rfl
  rw [puts]
  refine ⟨?_, ?_, ?_, fun c h1 h2 h3 => ?_⟩
  · rw [Frame.level_put, if_neg (by omega), Frame.level_put, if_neg (by omega), Frame.level_put,
      if_pos ⟨rfl, inside hr⟩]
  · rw [Frame.level_put, if_neg (by omega), Frame.level_put, if_pos ⟨rfl, inside hg⟩]
  · rw [Frame.level_put, if_pos ⟨rfl, inside hb⟩]
  · rw [Frame.level_put, if_neg (by omega), Frame.level_put, if_neg (by omega), Frame.level_put,
      if_neg (by omega)]

/-- A fixture shows a color on a sink on which no write fails, wherever among its channels red,
green and blue are: these take the levels of the color and no other channel of the universe changes.
The frame is the one that writing the three channels one by one leads to, in any order.  For a
fixture that lacks one of the three nothing is written, to whatever sink. -/
theorem setColor_tints {σ : Type} [Sink σ] [LawfulSink σ] (f : Fixture) (color : Color) {sink : σ}
    (reliable : Sink.Reliable sink) (author : Author) :
    (∀ r g b, f.channels[r]? = some "red" → f.channels[g]? = some "green" →
      f.channels[b]? = some "blue" →
      ∃ after, Sink.perform sink author (f.setColor color) = (after, .ok ()) ∧
        ((Sink.frame after).level (f.address + r) = color.red ∧
          (Sink.frame after).level (f.address + g) = color.green ∧
          (Sink.frame after).level (f.address + b) = color.blue ∧
          ∀ c, c ≠ f.address + r → c ≠ f.address + g → c ≠ f.address + b →
            (Sink.frame after).level c = (Sink.frame sink).level c) ∧
        ∀ jobs : List Job, jobs.Perm (f.singles color r g b) →
          ∃ after', Sink.perform sink author jobs.flatten = (after', .ok ()) ∧
            Sink.frame after' = Sink.frame after) ∧
    ("red" ∉ f.channels ∨ "green" ∉ f.channels ∨ "blue" ∉ f.channels →
      f.setColor color = [] ∧ ∀ s : σ, Sink.perform s author (f.setColor color) = (s, .ok ())) := by
  have silent (lacks : "red" ∉ f.channels ∨ "green" ∉ f.channels ∨ "blue" ∉ f.channels) :
      f.setColor color = [] := by
    simp only [setColor, rgb_eq_none_iff.2 lacks]
  refine ⟨fun r g b hr hg hb => ?_, fun lacks => ⟨silent lacks, fun s => by rw [silent lacks]; rfl⟩⟩
  rw [← offset_eq_some_iff] at hr hg hb
  have h : f.rgb = some (r, g, b) := rgb_eq_some_iff.2 ⟨hr, hg, hb⟩
  obtain ⟨after, done, shown⟩ := Sink.exists_perform reliable author (staysIn_setColor f color).fits
  rw [foldl_setColor h] at shown
  refine ⟨after, done, ?_, fun jobs perm => ?_⟩
  · rw [shown]
    exact level_singles h color (Sink.frame sink)
  · have fits : Job.Fits jobs.flatten :=
      fun w hw => fits_singles f color r g b w (perm.flatten.mem_iff.1 hw)
    obtain ⟨after', done', shown'⟩ := Sink.exists_perform reliable author fits
    refine ⟨after', done', ?_⟩
    rw [shown', shown]
    exact (foldl_apply_perm perm.flatten.symm (apart_singles h color) _).symm

/-- A lamp on the last channels of the universe that has its colors the wrong way round. -/
def backwardPar : Fixture where
  name := "par"
  address := 509
  channels := ["blue", "dimmer", "green", "red"]
  name_ne := by decide
  channels_pos := by decide
  address_pos := by decide
  fits := by decide
  named := by decide
  distinct := by decide

theorem setColor_tints_backwardPar :
    ∃ after, Sink.perform (Frame.dark.put 510 7) .desk (backwardPar.setColor ⟨10, 20, 30⟩) =
        (after, .ok ()) ∧
      (after.level 509 = 30 ∧ after.level 510 = 7 ∧ after.level 511 = 20 ∧ after.level 512 = 10) ∧
      Sink.perform (Frame.dark.put 510 7) .desk ((backwardPar.setChannel 2 20) ++
        (backwardPar.setChannel 0 30 ++ backwardPar.setChannel 3 10)) = (after, .ok ()) := by
  obtain ⟨all, -⟩ := setColor_tints backwardPar ⟨10, 20, 30⟩ (reliable_frame (Frame.dark.put 510 7))
    .desk
  obtain ⟨after, done, ⟨red, green, blue, kept⟩, any⟩ := all 3 2 0 rfl rfl rfl
  have rest : after.level 510 = 7 := (kept 510 (by decide) (by decide) (by decide)).trans
    ((Frame.level_put Frame.dark 510 510 7).trans (if_pos (by decide)))
  obtain ⟨after', done', same⟩ := any [backwardPar.setChannel 2 20, backwardPar.setChannel 0 30,
    backwardPar.setChannel 3 10] (by decide)
  have e : after' = after := same
  rw [e] at done'
  exact ⟨after, done, ⟨blue, rest, green, red⟩, done'⟩

end Fixture

end LightingDesk
