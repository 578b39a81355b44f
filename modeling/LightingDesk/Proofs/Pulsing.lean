import LightingDesk.Proofs.Bounds
import LightingDesk.Proofs.Highlighting

/-!
# Pulses, undone

Fixtures are pulsed in white for as long as one likes, on a sink on which no write fails and which
nobody else writes to; the same fixture may be among them twice, and they may share channels.  In
the end the frame is the first one again.  All the time, between any two writes, only what the pulse
drives looks different: a write of a tick stays on those channels, and a write that puts levels back
brings the first frame closer, since all saved levels come from it.

    a reliable sink makes every write of what is played      (play_of_reliable)
    levels cut into runs are given back run by run           (givesBack_of_mem_runs)
    a pulse that is put back leaves no trace                 (pulse_leaves_no_trace)
-/

namespace LightingDesk

/-! ## Writes that give levels back -/

/-- Whether a write shows the levels of a frame wherever it touches. -/
def Write.GivesBack (f : Frame) (w : Write) : Prop :=
  ∀ (g : Frame) (c : Nat), w.touches c → (g.apply w).level c = f.level c

/-- Whether levels are those of a frame from a channel on. -/
def Frame.Carries (f : Frame) (address : Nat) (values : List UInt8) : Prop :=
  ∀ i v, values[i]? = some v → address + i < 513 ∧ v = f.level (address + i)

theorem givesBack_run {f : Frame} {address : Nat} {values : List UInt8}
    (h : f.Carries address values) : (Write.run address values).GivesBack f := by
  intro g c ⟨h1, h2⟩
  have hget := List.getElem?_eq_getElem (l := values) (i := c - address) (by omega)
  obtain ⟨hlt, hv⟩ := h _ _ hget
  rw [Nat.add_sub_cancel' h1] at hlt hv
  rw [Frame.apply, Frame.level_store, if_pos ⟨h1, hlt⟩, hget, Option.getD_some, hv]

theorem givesBack_of_mem_runs {f : Frame} {address : Nat} {values : List UInt8}
    (h : f.Carries address values) : ∀ w ∈ runs address values, w.GivesBack f := by
  fun_induction runs address values with
  | case1 =>
    intro w hw
    cases hw
  | case2 address v rest ih =>
    rintro w (_ | ⟨_, hw⟩)
    · refine givesBack_run fun i u hu => h i u ?_
      -- the first run is the beginning of the levels
      change ((v :: rest).take maxRun)[i]? = some u at hu
      rw [List.getElem?_take] at hu
      split at hu
      · exact hu
      · cases hu
    · refine ih (fun i u hu => ?_) w hw
      rw [List.getElem?_drop] at hu
      have later := h (3 + i + 1) u hu
      rwa [show address + (3 + i + 1) = address + maxRun + i by unfold maxRun; omega] at later

theorem Frame.carries_slice (f : Frame) {address count : Nat} (fits : address + count ≤ 513) :
    f.Carries address (f.slice address count) := by
  intro i v hi
  rw [slice, List.getElem?_map, Option.map_eq_some_iff] at hi
  obtain ⟨j, hj, rfl⟩ := hi
  obtain ⟨hlt, hj⟩ := List.getElem?_eq_some_iff.1 hj
  rw [List.length_range] at hlt
  rw [List.getElem_range] at hj
  exact ⟨by omega, by rw [hj]⟩

theorem Fixture.givesBack_setValues (f : Fixture) (frame : Frame) :
    ∀ w ∈ f.setValues (f.values frame), w.GivesBack frame := by
  have hlen : (f.values frame).length = f.count := frame.length_slice f.address f.count
  rw [setValues, List.take_of_length_le (Nat.le_of_eq hlen)]
  exact givesBack_of_mem_runs (frame.carries_slice f.fits)

/-- Writes that keep to some channels, or give a frame's levels back, do not show elsewhere. -/
theorem level_foldl_of_givesBack {f : Frame} {P : Nat → Prop} {writes : List Write}
    (h : ∀ w ∈ writes, (∀ c, w.touches c → P c) ∨ w.GivesBack f) {g : Frame}
    (hg : ∀ c, ¬ P c → g.level c = f.level c) {c : Nat} (hc : ¬ P c) :
    (writes.foldl Frame.apply g).level c = f.level c := by
  induction writes generalizing g with
  | nil => exact hg c hc
  | cons w rest ih =>
    refine ih (fun w' hw' => h w' (List.mem_cons_of_mem _ hw')) fun d hd => ?_
    by_cases ht : w.touches d
    · obtain keeps | back := h w (List.mem_cons_self ..)
      · exact absurd (keeps d ht) hd
      · exact back g d ht
    · rw [level_apply g ht]
      exact hg d hd

/-! ## What a reliable sink is given to do -/

namespace Sink

variable {σ : Type} [Sink σ]

theorem perform_eq_after {s : σ} (reliable : Reliable s) (author : Author) {job : Job}
    (fits : job.Fits) : (perform s author job).1 = after s (job.map (author, ·)) := by
  induction job generalizing s with
  | nil => rfl
  | cons w rest ih =>
    have hw : (write s author w).2 = .ok () := reliable [] author w (fits w (by simp))
    have e : write s author w = ((write s author w).1, .ok ()) := Prod.ext rfl hw
    rw [perform, e]
    exact ih (reliable_write reliable author w) fun w' hm => fits w' (by simp [hm])

theorem frame_after [LawfulSink σ] {s : σ} (reliable : Reliable s) (author : Author) {job : Job}
    (fits : job.Fits) :
    frame (after s (job.map (author, ·))) = job.foldl Frame.apply (frame s) := by
  rw [← perform_eq_after reliable author fits]
  exact frame_perform (Prod.ext rfl (perform_of_reliable reliable author fits).1)

theorem performAll_eq_after {s : σ} (reliable : Reliable s) (author : Author) {jobs : List Job}
    (fits : ∀ job ∈ jobs, job.Fits) :
    (performAll s author jobs).1 = after s (jobs.flatten.map (author, ·)) := by
  induction jobs generalizing s with
  | nil => rfl
  | cons job rest ih =>
    have hj := fits job (by simp)
    obtain ⟨h1, h2⟩ := perform_of_reliable reliable author hj
    have e : perform s author job = (after s (job.map (author, ·)), .ok ()) :=
      Prod.ext (perform_eq_after reliable author hj) h1
    rw [perform_eq_after reliable author hj] at h2
    rw [performAll, e, List.flatten_cons, List.map_append, after_append]
    exact ih h2 fun j hm => fits j (by simp [hm])

theorem performAll_append (s : σ) (author : Author) (jobs jobs' : List Job) :
    performAll s author (jobs ++ jobs') =
      ((performAll (performAll s author jobs).1 author jobs').1,
        (performAll s author jobs).2 +
          (performAll (performAll s author jobs).1 author jobs').2) := by
  induction jobs generalizing s with
  | nil => simp [performAll]
  | cons job rest ih =>
    rw [List.cons_append, performAll, performAll]
    split
    · exact ih _
    · rw [ih]
      simp only [Nat.add_right_comm]

end Sink

/-- What is played in two parts is played as one. -/
theorem Stage.play_append {σ : Type} [Sink σ] (s : Stage σ) (author : Author)
    (jobs jobs' : List Job) :
    s.play author (jobs ++ jobs') = (s.play author jobs).play author jobs' := by
  unfold play
  rw [Sink.performAll_append]
  simp only [Nat.add_assoc]

namespace RawPulse

variable {σ : Type} [Sink σ]

/-! ## Pulses on a stage -/

/-- Ticks once. -/
def pulse (x : RawPulse × Stage σ) : RawPulse × Stage σ :=
  (x.1.tick.1, x.2.play (.effect .rawPulse) x.1.tick.2)

/-- Ticks a number of times. -/
def pulses : Nat → RawPulse × Stage σ → RawPulse × Stage σ
  | 0, x => x
  | n + 1, x => pulses n (pulse x)

/-- Puts all levels back. -/
def putBack (x : RawPulse × Stage σ) : Stage σ := x.2.play (.effect .rawPulse) x.1.restore

/-- The jobs of a number of ticks. -/
def jobs : Nat → RawPulse → List Job
  | 0, _ => []
  | n + 1, p => p.tick.2 ++ jobs n p.tick.1

/-- All writes of a number of ticks, and of putting the levels back after them. -/
def writes (n : Nat) (p : RawPulse) : List Write := (p.jobs n ++ p.restore).flatten

theorem putBack_pulses (n : Nat) (p : RawPulse) (s : Stage σ) :
    putBack (pulses n (p, s)) = s.play (.effect .rawPulse) (p.jobs n ++ p.restore) := by
  induction n generalizing p s with
  | zero => rfl
  | succ n ih =>
    rw [pulses, jobs, List.append_assoc, Stage.play_append]
    exact ih p.tick.1 _

theorem staysIn_jobs (n : Nat) (p : RawPulse) :
    ∀ job ∈ p.jobs n, job.StaysIn (Piece.pulse p.lights).Reach := by
  induction n generalizing p with
  | zero => exact nofun
  | succ n ih =>
    intro job hj
    rcases List.mem_append.1 hj with hj | hj
    · exact Effect.staysIn_tick .dark (.pulse p) job hj
    · exact ih p.tick.1 job hj

theorem owns_of_driven {p : RawPulse} {c : Nat} (h : (Piece.pulse p.lights).Reach c) :
    ∃ light ∈ p.lights, light.1.Owns c := by
  obtain ⟨light, hl, hc⟩ := h
  exact ⟨light, hl, hc.elim Fixture.owns_of_hasAt Fixture.owns_of_whiteAt⟩

theorem fits_of_mem_jobs {fixtures : List Fixture} {first : Frame} {n : Nat} {job : Job}
    (h : job ∈ (start fixtures first).jobs n ++ (start fixtures first).restore) : job.Fits := by
  rcases List.mem_append.1 h with h | h
  · exact (staysIn_jobs n _ job h).fits
  · obtain ⟨light, -, rfl⟩ := List.mem_map.1 h
    exact (Fixture.staysIn_setValues light.1 light.2).fits

theorem driven_or_givesBack {fixtures : List Fixture} {first : Frame} {n : Nat} {w : Write}
    (h : w ∈ (start fixtures first).writes n) :
    (∀ c, w.touches c → (Piece.pulse (start fixtures first).lights).Reach c) ∨
      w.GivesBack first := by
  obtain ⟨job, hj, hw⟩ := List.mem_flatten.1 h
  rcases List.mem_append.1 hj with hj | hj
  · exact .inl fun c hc => (staysIn_jobs n _ job hj).touches c ⟨w, hw, hc⟩
  · obtain ⟨light, hl, rfl⟩ := List.mem_map.1 hj
    obtain ⟨f, -, rfl⟩ := List.mem_map.1 hl
    exact .inr (f.givesBack_setValues first w hw)

/-- What is saved brings the first frame back, whichever fixtures have been pulsed. -/
theorem agree_after_restore (fixtures : List Fixture) (first : Frame) (n : Nat) :
    (first.after ((start fixtures first).jobs n ++ (start fixtures first).restore)).Agree
      first := by
  have saved : ∀ light ∈ (start fixtures first).lights, light.2 = light.1.values first := by
    intro light hl
    obtain ⟨f, -, rfl⟩ := List.mem_map.1 hl
    rfl
  have off : (first.after ((start fixtures first).jobs n)).AgreeOff
      (fun c => ∃ light ∈ (start fixtures first).lights, light.1.Owns c) first := by
    intro c _ _ hn
    refine level_after first fun job hj ht => hn ?_
    exact owns_of_driven ((staysIn_jobs n _ job hj).touches c ht)
  rw [Frame.after_append]
  exact agree_restored saved off

variable [LawfulSink σ]

/-- A pulse over any fixtures that is put back after any number of ticks leaves no trace: the frame
is the first one.  At any point in between, after any of the writes that are made, it differs from
the first one only in dimmers and white channels of the fixtures, where the three that carry color
stand in for a white one that is missing. -/
theorem pulse_leaves_no_trace (fixtures : List Fixture) {sink : σ}
    (reliable : Sink.Reliable sink) (n : Nat) :
    let first := Sink.frame sink
    let p := start fixtures first
    let last := putBack (pulses n (p, (⟨sink, 0⟩ : Stage σ)))
    last.frame = first ∧ last.reported = 0 ∧
    last.sink = Sink.after sink ((p.writes n).map (.effect .rawPulse, ·)) ∧
    ∀ writes, writes <+: p.writes n → ∀ c,
      (∀ f ∈ fixtures, ¬ f.HasAt "dimmer" c ∧ ¬ f.WhiteAt c) →
      (Sink.frame (Sink.after sink (writes.map (.effect .rawPulse, ·)))).level c =
        first.level c := by
  intro first p last
  have hlast : last = (⟨sink, 0⟩ : Stage σ).play (.effect .rawPulse) (p.jobs n ++ p.restore) :=
    putBack_pulses n p ⟨sink, 0⟩
  have fits : ∀ job ∈ p.jobs n ++ p.restore, job.Fits := fun _ => fits_of_mem_jobs
  have quiet : last.reported = 0 := by
    rw [hlast]
    exact (Nat.zero_add _).trans (Sink.performAll_of_reliable reliable _ fits).1
  have made : last.sink = Sink.after sink ((p.writes n).map (.effect .rawPulse, ·)) := by
    rw [hlast]
    exact Sink.performAll_eq_after reliable _ fits
  have between : ∀ writes, writes <+: p.writes n → ∀ c, ¬ (Piece.pulse p.lights).Reach c →
      (Sink.frame (Sink.after sink (writes.map (.effect .rawPulse, ·)))).level c =
        first.level c := by
    intro writes hw c hc
    have hfits : Job.Fits writes := by
      intro w hm
      obtain ⟨job, hj, hmem⟩ := List.mem_flatten.1 (hw.subset hm)
      exact fits job hj w hmem
    rw [Sink.frame_after reliable _ hfits]
    exact level_foldl_of_givesBack (fun w hm => driven_or_givesBack (hw.subset hm))
      (fun _ _ => rfl) hc
  refine ⟨Frame.ext_level fun c hc => ?_, quiet, made, fun writes hw c hc => between writes hw c ?_⟩
  · by_cases h1 : 1 ≤ c
    · have shown : last.frame = first.after (p.jobs n ++ p.restore) := by
        rw [hlast]
        exact Stage.frame_play (hlast ▸ quiet)
      rw [shown]
      exact agree_after_restore fixtures first n c h1 (by unfold universeSize; omega)
    · -- no fixture has a channel in front of the first one
      have zero := between _ (List.prefix_refl _) c fun hd => by
        obtain ⟨light, -, ho⟩ := owns_of_driven hd
        exact h1 (Fixture.le_of_owns ho).1
      rw [← made] at zero
      exact zero
  · rintro ⟨light, hl, hd⟩
    obtain ⟨f, hf, rfl⟩ := List.mem_map.1 hl
    exact hd.elim (hc f hf).1 (hc f hf).2

/-- A bar is pulsed twice, and another one that begins within it. -/
theorem pulse_leaves_no_trace_overlap :
    let first := (Frame.dark.put 3 40).put 5 9
    let bars := [Highlight.bar 1, Highlight.bar 3, Highlight.bar 1]
    let x := pulses 2 (start bars first, (⟨first, 0⟩ : Stage Frame))
    x.2.frame.level 1 = 245 ∧ x.2.frame.level 3 = 255 ∧ x.2.frame.level 7 = 0 ∧
      (putBack x).frame = first := by
  have undone := pulse_leaves_no_trace [Highlight.bar 1, Highlight.bar 3, Highlight.bar 1]
    (reliable_frame ((Frame.dark.put 3 40).put 5 9)) 2
  exact ⟨by decide +kernel, by decide +kernel, by decide +kernel, undone.1⟩

end RawPulse

end LightingDesk
