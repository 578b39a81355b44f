import LightingDesk.Proofs.Channels

/-!
# Levels in portions

The levels of a fixture go out in portions of four, the last of which may be short.  When all of
them get through, the frame changes as by one write of all levels.  When one does not, those before
it have been stored, and no other is tried.

    a run is found by its number                              (getElem?_runs)
    the first runs are the runs of the first levels           (take_runs)
    a recorder goes on behind writes that get through         (perform_append_of_goes)
    levels are stored up to the first portion that fails      (setValues_stored)
-/

namespace LightingDesk

/-! ## Runs by number -/

/-- The portion of levels with a number: four from four times the number on, as far as there are
any. -/
def portion (address : Nat) (values : List UInt8) (i : Nat) : Write :=
  .run (address + 4 * i) ((values.drop (4 * i)).take 4)

theorem getElem?_runs (address : Nat) (values : List UInt8) (i : Nat) :
    (runs address values)[i]? =
      if 4 * i < values.length then some (portion address values i) else none := by
  fun_induction runs address values generalizing i with
  | case1 => rfl
  | case2 address v rest ih =>
    cases i with
    | zero => rfl
    | succ i =>
      have place : address + maxRun + 4 * i = address + 4 * (i + 1) := by
        unfold maxRun
        omega
      have levels : (rest.drop (maxRun - 1)).drop (4 * i) = (v :: rest).drop (4 * (i + 1)) := by
        rw [List.drop_drop, Nat.mul_succ, List.drop_succ_cons, Nat.add_comm]
        rfl
      have left : 4 * i < (rest.drop (maxRun - 1)).length ↔ 4 * (i + 1) < (v :: rest).length := by
        rw [List.length_drop, List.length_cons, maxRun]
        omega
      rw [List.getElem?_cons_succ, ih]
      simp only [portion, place, levels, left]

theorem runs_eq_map (address : Nat) (values : List UInt8) :
    runs address values =
      (List.range ((values.length + 3) / 4)).map (portion address values) := by
  refine List.ext_getElem? fun i => ?_
  rw [getElem?_runs, List.getElem?_map]
  split
  · rw [List.getElem?_range (by omega)]
    rfl
  · rw [List.getElem?_eq_none (by rw [List.length_range]; omega)]
    rfl

/-- The first runs carry the first levels, four each. -/
theorem take_runs (address : Nat) (values : List UInt8) (n : Nat) :
    (runs address values).take n = runs address (values.take (4 * n)) := by
  fun_induction runs address values generalizing n with
  | case1 => rw [List.take_nil, List.take_nil, runs]
  | case2 address v rest ih =>
    cases n with
    | zero => rw [List.take_zero, Nat.mul_zero, List.take_zero, runs]
    | succ n =>
      rw [List.take_succ_cons, ih, Nat.mul_succ, List.take_succ_cons, runs, List.take_take,
        List.drop_take]
      rfl

theorem take_runs_eq_map (address : Nat) {values : List UInt8} {n : Nat}
    (h : 4 * n < values.length + 4) :
    (runs address values).take n = (List.range n).map (portion address values) := by
  rw [runs_eq_map, ← List.map_take, List.take_range, Nat.min_eq_left (by omega)]

/-! ## What a recorder makes of a job -/

namespace Recorder

/-- The recorder after some writes have been tried of which the first ones got through. -/
def noted (r : Recorder) (author : Author) (stored tried : List Write) : Recorder :=
  { r with
    kept := stored.foldl Frame.apply r.kept
    history := (tried.map (author, ·)).reverse ++ r.history }

/-- Whether a write gets through, whatever has been asked before. -/
def Goes (r : Recorder) (w : Write) : Prop :=
  w.check = .ok () ∧ ∀ history, r.fails history w = none

theorem write_of_goes {r : Recorder} {w : Write} (goes : r.Goes w) (author : Author) :
    Sink.write r author w = (r.noted author [w] [w], .ok ()) := by
  simp only [Sink.write, goes.1, goes.2]
  rfl

theorem noted_noted (r : Recorder) (author : Author) (ws stored tried : List Write) :
    (r.noted author ws ws).noted author stored tried =
      r.noted author (ws ++ stored) (ws ++ tried) := by
  simp [noted]

/-- Behind writes that get through, the rest of a job is done by the recorder that has them down. -/
theorem perform_append_of_goes {r : Recorder} {writes : List Write} (goes : ∀ w ∈ writes, r.Goes w)
    (author : Author) (rest : Job) :
    Sink.perform r author (writes ++ rest) =
      Sink.perform (r.noted author writes writes) author rest := by
  induction writes generalizing r with
  | nil => rfl
  | cons w writes ih =>
    have later : ∀ w' ∈ writes, (r.noted author [w] [w]).Goes w' :=
      fun w' hw' => goes w' (List.mem_cons_of_mem _ hw')
    rw [List.cons_append, Sink.perform, write_of_goes (goes w (.head _))]
    exact (ih later).trans (by rw [noted_noted]; rfl)

theorem perform_of_goes {r : Recorder} {job : Job} (goes : ∀ w ∈ job, r.Goes w)
    (author : Author) : Sink.perform r author job = (r.noted author job job, .ok ()) := by
  have h := perform_append_of_goes goes author []
  rwa [List.append_nil] at h

/-- A write that fails ends the job, and is the last one that the recorder has down. -/
theorem perform_of_fails {r : Recorder} {job : Job} {j : Nat} {w : Write} (hj : job[j]? = some w)
    (goes : ∀ w' ∈ job.take j, r.Goes w') {reason : String}
    (fails : ∀ history, r.fails history w = some reason) (author : Author) :
    Sink.perform r author job =
      (r.noted author (job.take j) (job.take (j + 1)), .error (.output reason)) := by
  obtain ⟨hlt, hw⟩ := List.getElem?_eq_some_iff.1 hj
  have parts : job.take j ++ w :: job.drop (j + 1) = job := by
    rw [← hw, ← List.drop_eq_getElem_cons hlt, List.take_append_drop]
  have tried : job.take (j + 1) = job.take j ++ [w] := by
    rw [List.take_add_one, hj]
    rfl
  have refused : ∀ stored, Sink.write (r.noted author stored stored) author w =
      ((r.noted author stored stored).noted author [] [w], .error (.output reason)) := by
    intro stored
    simp only [Sink.write, noted, fails]
    rfl
  have h := perform_append_of_goes goes author (w :: job.drop (j + 1))
  rw [parts, Sink.perform, refused, noted_noted, List.append_nil, ← tried] at h
  exact h

end Recorder

/-! ## Levels of a fixture -/

/-- Whether a frame goes over into another one by levels that are stored from a channel on. -/
structure Frame.Stored (before after : Frame) (address : Nat) (values : List UInt8) : Prop where
  given : ∀ i v, values[i]? = some v → after.level (address + i) = v
  kept : ∀ c, c < address ∨ address + values.length ≤ c → after.level c = before.level c

theorem Frame.stored_store (f : Frame) {address : Nat} {values : List UInt8}
    (fits : address + values.length ≤ 513) : f.Stored (f.store address values) address values := by
  constructor
  · intro i v hv
    obtain ⟨hi, -⟩ := List.getElem?_eq_some_iff.1 hv
    rw [level_store, if_pos ⟨Nat.le_add_right _ _, by omega⟩, Nat.add_sub_cancel_left, hv]
    rfl
  · intro c hc
    exact level_apply_run f address c values hc

namespace Fixture

theorem setValues_eq (f : Fixture) (values : List UInt8) :
    f.setValues values = runs f.address (values.take (min values.length f.count)) := by
  rw [setValues, List.take_eq_take_min, Nat.min_comm]

/-- A fixture shows the levels that have been stored in its channels. -/
theorem values_of_stored {f : Fixture} {before after : Frame} {values : List UInt8}
    (h : before.Stored after f.address values) (all : values.length = f.count) :
    f.values after = values := by
  refine List.ext_getElem? fun i => ?_
  by_cases hi : i < f.count
  · have hv := List.getElem?_eq_getElem (l := values) (i := i) (by omega)
    rw [hv, getElem?_values hi, h.given i _ hv]
  · rw [List.getElem?_eq_none (by rw [Fixture.values, Frame.length_slice]; omega),
      List.getElem?_eq_none (by omega)]

variable (f : Fixture) (frame : Frame) (values : List UInt8)

/-- The first portions store the first levels. -/
theorem stored_take_setValues (n : Nat) :
    frame.Stored (((f.setValues values).take n).foldl Frame.apply frame) f.address
      (values.take (min (4 * n) (min values.length f.count))) := by
  rw [setValues_eq, take_runs, foldl_apply_runs, List.take_take]
  refine frame.stored_store ?_
  have room := f.fits
  rw [List.length_take]
  unfold count
  omega

theorem take_setValues {n : Nat} (h : 4 * n < min values.length f.count + 4) :
    (f.setValues values).take n =
      (List.range n).map
        (portion f.address (values.take (min values.length f.count))) := by
  rw [setValues_eq, take_runs_eq_map]
  rw [List.length_take]
  omega

theorem length_setValues :
    (f.setValues values).length = (min values.length f.count + 3) / 4 := by
  rw [setValues_eq, runs_eq_map, List.length_map, List.length_range, List.length_take,
    Nat.min_eq_left (Nat.min_le_left _ _)]

/-- As long as no portion begins at a channel where writes fail, all of them get through. -/
theorem goes_of_mem_setValues {reasons : Nat → Option String} {n : Nat}
    (through : ∀ i < n, 4 * i < min values.length f.count → reasons (f.address + 4 * i) = none) :
    ∀ w ∈ (f.setValues values).take n, (Recorder.failingAt frame reasons).Goes w := by
  intro w hw
  have fits : w.check = .ok () := (staysIn_setValues f values).fits w (List.mem_of_mem_take hw)
  obtain ⟨i, hi, hget⟩ := List.mem_take_iff_getElem.1 hw
  have hget := (List.getElem?_eq_getElem (by omega)).trans (congrArg some hget)
  rw [setValues_eq, getElem?_runs, List.length_take, Nat.min_eq_left (Nat.min_le_left _ _)] at hget
  split at hget
  · rename_i hlt
    refine ⟨fits, fun _ => ?_⟩
    rw [← Option.some.inj hget]
    exact through i (by omega) hlt
  · cases hget

/-- Levels given to a fixture go out in portions of four, one after the other, to a sink on which
every write fails that begins at one of some channels, each for a reason of its own.  If no portion
begins at one of these, all levels that the fixture has channels for are stored, as by a single
write.  Else the first portion that does so fails, and its reason is reported; the levels of those
before it are stored and no others, and no portion behind it is tried.  After a success a fixture
that has been given a level for each of its channels shows them. -/
theorem setValues_stored (reasons : Nat → Option String) (author : Author) :
    let m := min values.length f.count
    let sent := portion f.address (values.take m)
    let done := Sink.perform (Recorder.failingAt frame reasons) author (f.setValues values)
    ((∀ i, 4 * i < m → reasons (f.address + 4 * i) = none) →
      done.2 = .ok () ∧ frame.Stored done.1.kept f.address (values.take m) ∧
        done.1.history.reverse = (List.range ((m + 3) / 4)).map fun i => (author, sent i)) ∧
    (∀ j reason, 4 * j < m → reasons (f.address + 4 * j) = some reason →
      (∀ i < j, reasons (f.address + 4 * i) = none) →
      done.2 = .error (.output reason) ∧
        frame.Stored done.1.kept f.address (values.take (4 * j)) ∧
        done.1.history.reverse = (List.range (j + 1)).map fun i => (author, sent i)) ∧
    (values.length = f.count → done.2 = .ok () → f.values done.1.kept = values) := by
  intro m sent done
  let r := Recorder.failingAt frame reasons
  have stored : ∀ n tried, frame.Stored (r.noted author ((f.setValues values).take n) tried).kept
      f.address (values.take (min (4 * n) m)) :=
    fun n _ => f.stored_take_setValues frame values n
  have history : ∀ stored n, 4 * n < m + 4 →
      (r.noted author stored ((f.setValues values).take n)).history.reverse =
        (List.range n).map fun i => (author, sent i) := by
    intro stored n hn
    rw [f.take_setValues values hn]
    simp [r, Recorder.noted, Recorder.failingAt, sent, m]
  refine ⟨fun through => ?_, fun j reason hj breaks first => ?_, fun all success => ?_⟩
  · have whole : (f.setValues values).take ((m + 3) / 4) = f.setValues values :=
      List.take_of_length_le (Nat.le_of_eq (f.length_setValues values))
    have goes := f.goes_of_mem_setValues frame values (n := (m + 3) / 4) fun i _ => through i
    rw [whole] at goes
    have hdone : done = (r.noted author _ _, .ok ()) := Recorder.perform_of_goes goes author
    have all := stored ((m + 3) / 4) ((f.setValues values).take ((m + 3) / 4))
    rw [Nat.min_eq_right (by omega)] at all
    rw [hdone, ← whole]
    exact ⟨rfl, all, history _ _ (by omega)⟩
  · have hget : (f.setValues values)[j]? = some (sent j) := by
      rw [setValues_eq, getElem?_runs, if_pos]
      rw [List.length_take]
      omega
    have fails : ∀ history, r.fails history (sent j) = some reason := fun _ => breaks
    have goes := f.goes_of_mem_setValues frame values (n := j) fun i hi _ => first i hi
    have hdone : done = (r.noted author _ _, .error (.output reason)) :=
      Recorder.perform_of_fails hget goes fails author
    have before := stored j ((f.setValues values).take (j + 1))
    rw [Nat.min_eq_left (by omega)] at before
    rw [hdone]
    exact ⟨rfl, before, history _ _ (by omega)⟩
  · have shown : done.1.kept = (f.setValues values).foldl Frame.apply frame :=
      Sink.frame_perform (Prod.ext rfl success : done = (done.1, .ok ()))
    rw [shown, setValues_eq, foldl_apply_runs, all, Nat.min_self, ← all, List.take_length]
    exact values_of_stored (frame.stored_store (all ▸ f.fits)) all

/-- A lamp of eleven channels. -/
def tube : Fixture where
  name := "tube"
  address := 100
  channels := ["dimmer", "red", "green", "blue", "amber", "white", "strobe", "zoom", "preset",
    "unknown1", "unknown2"]
  name_ne := by decide
  channels_pos := by decide
  address_pos := by decide
  fits := by decide
  named := by decide
  distinct := by decide

/-- A cable that is broken in two places. -/
def brokenCable : Nat → Option String
  | 104 => some "loose"
  | 108 => some "cut"
  | _ => none

/-- The second of three portions fails; that the third one would fail too does not matter. -/
theorem setValues_stored_tube :
    let done := Sink.perform (Recorder.failingAt (Frame.dark.put 104 9) brokenCable) .desk
      (tube.setValues [1, 2, 3, 4, 5, 6, 7, 8, 9, 10, 11, 12])
    done.2 = .error (.output "loose") ∧ done.1.kept.level 103 = 4 ∧ done.1.kept.level 104 = 9 ∧
      done.1.history.reverse =
        [(.desk, .run 100 [1, 2, 3, 4]), (.desk, .run 104 [5, 6, 7, 8])] := by
  obtain ⟨-, breaks, -⟩ := setValues_stored tube (Frame.dark.put 104 9)
    [1, 2, 3, 4, 5, 6, 7, 8, 9, 10, 11, 12] brokenCable .desk
  obtain ⟨failed, stored, history⟩ := breaks 1 "loose" (by decide) rfl (by decide)
  have kept := stored.kept 104 (.inr (by decide))
  rw [Frame.level_put] at kept
  exact ⟨failed, stored.given 3 4 rfl, kept, history⟩

end Fixture

end LightingDesk
