import LightingDesk.Dmx.Feed
import LightingDesk.Dmx.Recorder
import LightingDesk.Show.Playback

/-!
# What writes leave alone

A write that goes through shows at once on every lawful sink, and it changes only the channels it
touches.  Both carry over to jobs, and to what a stage is given to play, as long as nothing that
fails is reported.  A sink is reliable if no write that fits ever fails on it, whatever has been
written before; jobs that fit are then never reported.

    what is played without a failure shows                         (frame_play)
    jobs that stay in some channels leave the others alone, and
    do not fail on a reliable sink                                 (within_play)
-/

namespace LightingDesk

/-- A sink on which every write that goes through shows at once. -/
class LawfulSink (σ : Type) [Sink σ] : Prop where
  frame_write : ∀ (s s' : σ) (author : Author) (w : Write),
    Sink.write s author w = (s', .ok ()) → Sink.frame s' = (Sink.frame s).apply w

/-! ## Writes and jobs -/

/-- Whether a write gives channel `c` a level. -/
def Write.touches : Write → Nat → Prop
  | run address values, c => address ≤ c ∧ c < address + values.length
  | whole _, _ => True

/-- Whether a job gives channel `c` a level. -/
def Job.touches (job : Job) (c : Nat) : Prop := ∃ w ∈ job, w.touches c

/-- Whether no write of a job is one that sinks refuse. -/
def Job.Fits (job : Job) : Prop := ∀ w ∈ job, w.check = .ok ()

/-- The frame after jobs of which no write fails. -/
def Frame.after (f : Frame) (jobs : List Job) : Frame := jobs.flatten.foldl Frame.apply f

theorem Frame.after_cons (f : Frame) (job : Job) (jobs : List Job) :
    f.after (job :: jobs) = (job.foldl Frame.apply f).after jobs := by
  simp [Frame.after]

theorem Frame.after_append (f : Frame) (jobs jobs' : List Job) :
    f.after (jobs ++ jobs') = (f.after jobs).after jobs' := by
  simp [Frame.after]

theorem level_apply (f : Frame) {w : Write} {c : Nat} (h : ¬ w.touches c) :
    (f.apply w).level c = f.level c := by
  cases w with
  | run address values =>
    refine level_apply_run f address c values ?_
    simp only [Write.touches] at h
    omega
  | whole g => exact absurd trivial h

theorem level_foldl_apply (f : Frame) {job : Job} {c : Nat} (h : ¬ job.touches c) :
    (job.foldl Frame.apply f).level c = f.level c := by
  induction job generalizing f with
  | nil => rfl
  | cons w rest ih =>
    have hw : ¬ w.touches c := fun hc => h ⟨w, by simp, hc⟩
    have hr : ¬ Job.touches rest c := fun ⟨w', hm, hc⟩ => h ⟨w', by simp [hm], hc⟩
    rw [List.foldl_cons, ih _ hr, level_apply f hw]

theorem level_after (f : Frame) {jobs : List Job} {c : Nat} (h : ∀ job ∈ jobs, ¬ job.touches c) :
    (f.after jobs).level c = f.level c := by
  induction jobs generalizing f with
  | nil => rfl
  | cons job rest ih =>
    rw [Frame.after_cons, ih _ fun j hj => h j (by simp [hj]),
      level_foldl_apply f (h job (by simp))]

/-- A job that fits and touches only channels in `P`. -/
structure Job.StaysIn (job : Job) (P : Nat → Prop) : Prop where
  fits : job.Fits
  touches : ∀ c, job.touches c → P c

namespace Job

variable {P Q : Nat → Prop} {job job' : Job}

theorem staysIn_nil (P : Nat → Prop) : StaysIn [] P :=
  ⟨fun _ hw => absurd hw (by simp), fun _ ⟨_, hw, _⟩ => absurd hw (by simp)⟩

theorem StaysIn.append (h : job.StaysIn P) (h' : job'.StaysIn P) : StaysIn (job ++ job') P := by
  constructor
  · intro w hw
    rcases List.mem_append.1 hw with hw | hw
    · exact h.fits w hw
    · exact h'.fits w hw
  · rintro c ⟨w, hw, hc⟩
    rcases List.mem_append.1 hw with hw | hw
    · exact h.touches c ⟨w, hw, hc⟩
    · exact h'.touches c ⟨w, hw, hc⟩

theorem StaysIn.mono (h : job.StaysIn P) (hPQ : ∀ c, P c → Q c) : job.StaysIn Q :=
  ⟨h.fits, fun c hc => hPQ c (h.touches c hc)⟩

end Job

/-! ## Frames that agree -/

/-- Whether frames agree on all channels of the universe. -/
def Frame.Agree (f g : Frame) : Prop :=
  ∀ c, 1 ≤ c → c ≤ universeSize → f.level c = g.level c

/-- Whether frames agree on all channels of the universe but those in `P`. -/
def Frame.AgreeOff (P : Nat → Prop) (f g : Frame) : Prop :=
  ∀ c, 1 ≤ c → c ≤ universeSize → ¬ P c → f.level c = g.level c

theorem Frame.Agree.off {f g : Frame} (h : f.Agree g) (P : Nat → Prop) : f.AgreeOff P g :=
  fun c h1 h2 _ => h c h1 h2

theorem Frame.AgreeOff.mono {P Q : Nat → Prop} {f g : Frame} (h : f.AgreeOff P g)
    (hPQ : ∀ c, P c → Q c) : f.AgreeOff Q g :=
  fun c h1 h2 hc => h c h1 h2 fun hp => hc (hPQ c hp)

/-! ## Sinks -/

namespace Sink

variable {σ : Type} [Sink σ]

theorem frame_perform [LawfulSink σ] {s s' : σ} {author : Author} {job : Job}
    (h : perform s author job = (s', .ok ())) : frame s' = job.foldl Frame.apply (frame s) := by
  induction job generalizing s with
  | nil =>
    cases h
    rfl
  | cons w rest ih =>
    rw [perform] at h
    split at h
    · rename_i s1 hw
      rw [ih h, LawfulSink.frame_write s s1 author w hw]
      rfl
    · cases h

theorem frame_performAll [LawfulSink σ] (s : σ) (author : Author) (jobs : List Job)
    (h : (performAll s author jobs).2 = 0) :
    frame (performAll s author jobs).1 = (frame s).after jobs := by
  induction jobs generalizing s with
  | nil => rfl
  | cons job rest ih =>
    rw [performAll] at h ⊢
    split at h
    · rename_i s' hj
      rw [ih s' h, Frame.after_cons, frame_perform hj]
    · cases h

/-- The sink after writes, whatever has become of them. -/
def after (s : σ) (writes : List (Author × Write)) : σ :=
  writes.foldl (fun s w => (write s w.1 w.2).1) s

theorem after_append (s : σ) (ws ws' : List (Author × Write)) :
    after s (ws ++ ws') = after (after s ws) ws' := List.foldl_append

/-- How a sink goes on when all writes to it are made in one name. -/
def WrittenBy (author : Author) (s s' : σ) : Prop :=
  ∃ writes : List Write, s' = after s (writes.map (author, ·))

theorem WrittenBy.refl (author : Author) (s : σ) : WrittenBy author s s := ⟨[], rfl⟩

theorem WrittenBy.trans {author : Author} {s s' s'' : σ} (h : WrittenBy author s s')
    (h' : WrittenBy author s' s'') : WrittenBy author s s'' := by
  obtain ⟨ws, rfl⟩ := h
  obtain ⟨ws', rfl⟩ := h'
  exact ⟨ws ++ ws', by rw [List.map_append, after_append]⟩

theorem writtenBy_write (s : σ) (author : Author) (w : Write) :
    WrittenBy author s (write s author w).1 := ⟨[w], rfl⟩

theorem writtenBy_perform (s : σ) (author : Author) (job : Job) :
    WrittenBy author s (perform s author job).1 := by
  induction job generalizing s with
  | nil => exact .refl author s
  | cons w rest ih =>
    have hw := writtenBy_write s author w
    rw [perform]
    split
    · rename_i s' hs
      rw [hs] at hw
      exact hw.trans (ih s')
    · rename_i hs
      rw [hs] at hw
      exact hw

theorem writtenBy_performAll (s : σ) (author : Author) (jobs : List Job) :
    WrittenBy author s (performAll s author jobs).1 := by
  induction jobs generalizing s with
  | nil => exact .refl author s
  | cons job rest ih =>
    have hj := writtenBy_perform s author job
    rw [performAll]
    split
    · rename_i s' hs
      rw [hs] at hj
      exact hj.trans (ih s')
    · rename_i s' _ hs
      rw [hs] at hj
      exact hj.trans (ih s')

/-- No write that fits ever fails on the sink. -/
def Reliable (s : σ) : Prop :=
  ∀ writes author w, w.check = .ok () → (write (after s writes) author w).2 = .ok ()

theorem reliable_write {s : σ} (h : Reliable s) (author : Author) (w : Write) :
    Reliable (write s author w).1 :=
  fun writes => h ((author, w) :: writes)

theorem perform_of_reliable {s : σ} (h : Reliable s) (author : Author) {job : Job}
    (hj : job.Fits) : (perform s author job).2 = .ok () ∧ Reliable (perform s author job).1 := by
  induction job generalizing s with
  | nil => exact ⟨rfl, h⟩
  | cons w rest ih =>
    have hw : (write s author w).2 = .ok () := h [] author w (hj w (by simp))
    have hr := ih (reliable_write h author w) fun w' hm => hj w' (by simp [hm])
    have e : write s author w = ((write s author w).1, .ok ()) := Prod.ext rfl hw
    rw [perform, e]
    exact hr

/-- A reliable sink does a job that fits, and shows it. -/
theorem exists_perform [LawfulSink σ] {s : σ} (reliable : Reliable s) (author : Author) {job : Job}
    (fits : job.Fits) :
    ∃ s', perform s author job = (s', .ok ()) ∧ frame s' = job.foldl Frame.apply (frame s) := by
  have done : perform s author job = ((perform s author job).1, .ok ()) :=
    Prod.ext rfl (perform_of_reliable reliable author fits).1
  exact ⟨_, done, frame_perform done⟩

theorem performAll_of_reliable {s : σ} (h : Reliable s) (author : Author) {jobs : List Job}
    (hj : ∀ job ∈ jobs, job.Fits) :
    (performAll s author jobs).2 = 0 ∧ Reliable (performAll s author jobs).1 := by
  induction jobs generalizing s with
  | nil => exact ⟨rfl, h⟩
  | cons job rest ih =>
    obtain ⟨h1, h2⟩ := perform_of_reliable h author (hj job (by simp))
    have e : perform s author job = ((perform s author job).1, .ok ()) := Prod.ext rfl h1
    rw [performAll, e]
    exact ih h2 fun j hm => hj j (by simp [hm])

end Sink

/-! ## The sinks there are -/

theorem reliable_frame (f : Frame) : Sink.Reliable f := by
  intro writes author w hw
  simp only [Sink.write, hw]

instance : LawfulSink Frame where
  frame_write f f' author w h := by
    simp only [Sink.write] at h
    split at h
    · cases h
      rfl
    · cases h

instance : LawfulSink Recorder where
  frame_write r r' author w h := by
    simp only [Sink.write] at h
    split at h
    · cases h
    · split at h
      · cases h
        rfl
      · cases h

instance : LawfulSink Feed where
  frame_write s s' author w h := by
    simp only [Sink.write, Feed.flush] at h
    split at h
    · split at h
      · cases h
      · cases h
        rfl
    · cases h

/-! ## Stages -/

namespace Stage

variable {σ : Type} [Sink σ]

theorem reported_le_play (s : Stage σ) (author : Author) (jobs : List Job) :
    s.reported ≤ (s.play author jobs).reported := Nat.le_add_right _ _

theorem frame_play [LawfulSink σ] {s : Stage σ} {author : Author} {jobs : List Job}
    (h : (s.play author jobs).reported = s.reported) :
    (s.play author jobs).frame = s.frame.after jobs := by
  refine Sink.frame_performAll s.sink author jobs ?_
  have : s.reported + (Sink.performAll s.sink author jobs).2 = s.reported := h
  omega

/-- How a stage goes on when all that is played on it fits and stays in `P`: by writes alone,
without a failure no channel outside changes, and a reliable sink has no failures. -/
structure Within (P : Nat → Prop) (s s' : Stage σ) : Prop where
  led : ∃ writes, s'.sink = Sink.after s.sink writes
  reported_le : s.reported ≤ s'.reported
  level_eq : s'.reported = s.reported → ∀ c, ¬ P c → s'.frame.level c = s.frame.level c
  reliable : Sink.Reliable s.sink → s'.reported = s.reported ∧ Sink.Reliable s'.sink

variable {P Q : Nat → Prop} {s s' s'' : Stage σ}

theorem Within.refl (P : Nat → Prop) (s : Stage σ) : s.Within P s :=
  ⟨⟨[], rfl⟩, Nat.le_refl _, fun _ _ _ => rfl, fun h => ⟨rfl, h⟩⟩

/-- When nothing is reported in the end, nothing has been reported in between. -/
theorem Within.quiet_parts (h : s.Within P s') (h' : s'.Within Q s'')
    (quiet : s''.reported = s.reported) :
    s'.reported = s.reported ∧ s''.reported = s'.reported := by
  have h1 := h.reported_le
  have h2 := h'.reported_le
  omega

theorem Within.trans (h : s.Within P s') (h' : s'.Within P s'') : s.Within P s'' := by
  refine ⟨?_, Nat.le_trans h.reported_le h'.reported_le, ?_, ?_⟩
  · obtain ⟨ws, hw⟩ := h.led
    obtain ⟨ws', hw'⟩ := h'.led
    exact ⟨ws ++ ws', by rw [hw', hw, Sink.after_append]⟩
  · intro quiet c hc
    obtain ⟨q1, q2⟩ := h.quiet_parts h' quiet
    rw [h'.level_eq q2 c hc, h.level_eq q1 c hc]
  · intro hs
    obtain ⟨e1, hs1⟩ := h.reliable hs
    obtain ⟨e2, hs2⟩ := h'.reliable hs1
    exact ⟨e2.trans e1, hs2⟩

theorem Within.mono (h : s.Within P s') (hPQ : ∀ c, P c → Q c) : s.Within Q s' :=
  ⟨h.led, h.reported_le, fun hr c hc => h.level_eq hr c fun hp => hc (hPQ c hp), h.reliable⟩

/-- What goes on within `P` without a failure cannot be seen off `P`. -/
theorem Within.agreeOff {f : Frame} (h : s.Within P s') (quiet : s'.reported = s.reported)
    (ha : s.frame.AgreeOff P f) : s'.frame.AgreeOff P f := by
  intro c h1 h2 hc
  rw [h.level_eq quiet c hc]
  exact ha c h1 h2 hc

theorem within_play [LawfulSink σ] (s : Stage σ) (author : Author) {jobs : List Job}
    (h : ∀ job ∈ jobs, job.StaysIn P) : s.Within P (s.play author jobs) := by
  refine ⟨?_, reported_le_play s author jobs, ?_, ?_⟩
  · obtain ⟨ws, hw⟩ := Sink.writtenBy_performAll s.sink author jobs
    exact ⟨_, hw⟩
  · intro hr c hc
    rw [frame_play hr]
    exact level_after s.frame fun job hj ht => hc ((h job hj).touches c ht)
  · intro hs
    obtain ⟨h1, h2⟩ := Sink.performAll_of_reliable hs author fun job hj => (h job hj).fits
    refine ⟨?_, h2⟩
    show s.reported + _ = s.reported
    rw [h1, Nat.add_zero]

end Stage

end LightingDesk
