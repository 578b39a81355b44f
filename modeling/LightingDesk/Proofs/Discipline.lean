import LightingDesk.Proofs.Pacing
import LightingDesk.Show.Interleaving

/-!
# The loop of a playback beside its owner

Whatever order a playback and its owner take their steps in, what has happened is in order: a
cancelled signal stays cancelled, at most one tick comes after it was cancelled, the effect is put
back once and last, and a playback that sleeps for a time its effect no longer asks for is about to
be told so.  A playback that has been cancelled is done as soon as its loop has been allowed to go
once round.

    every step keeps what has happened in order                    (ordered_step)
    so do all of them, and a cancelled loop ends                   (discipline_kept)
    the playback of a desk, from start to stop, is one such order  (interleaved_of_ticksAt)
-/

namespace LightingDesk

namespace Interleaving

/-- How many steps of its own a playback needs, from each stage, before it is done. -/
def Stage.left : Stage → Nat
  | looking => 3
  | asleep _ => 2
  | restoring => 1
  | done => 0

namespace State

theorem hasCancelled_iff {s : State} : s.hasCancelled = true ↔ .cancel ∈ s.acts :=
  List.contains_iff_mem

theorem run_append (s : State) (steps later : List Step) :
    s.run (steps ++ later) = (s.run steps).run later := List.foldl_append

/-! ## What a step keeps -/

/-- What has happened, newest first, is in order, and the playback and its owner stand where it says
they do. -/
structure Ordered (s : State) : Prop where
  /-- The signal says whether there was a cancel. -/
  signal_iff : s.signal = .cancelled ↔ .cancel ∈ s.acts
  /-- The loop is left only after a cancel. -/
  left_cancelled : s.stage = .restoring ∨ s.stage = .done → .cancel ∈ s.acts
  /-- A cancel that comes before a look allows the tick of that look, and nothing after it. -/
  ticks_le : ∀ after before, s.acts = after ++ .cancel :: before →
    after.count .tick ≤ if s.stage = .looking then 0 else 1
  /-- Nothing happens after the effect has been put back. -/
  restore_last : s.stage = .done → ∃ before, s.acts = .restore :: before ∧ .restore ∉ before
  restore_due : s.stage ≠ .done → .restore ∉ s.acts
  /-- Nobody sleeps on an old interval for long. -/
  told : ∀ i, s.stage = .asleep i → i ≠ s.interval →
    s.signal = .woken ∨ s.signal = .cancelled ∨ s.hasChanged = true

theorem ordered_start (interval : Nat) : Ordered (start interval) where
  signal_iff := by simp [start]
  left_cancelled := by simp [start]
  ticks_le := by simp [start]
  restore_last := by simp [start]
  restore_due := by simp [start]
  told := by simp [start]

/-- Where the newest act stands when it is split off together with an older cancel. -/
theorem cons_split {a : Act} {acts after before : List Act} (ha : a ≠ .cancel)
    (h : a :: acts = after ++ .cancel :: before) :
    ∃ later, after = a :: later ∧ acts = later ++ .cancel :: before := by
  cases after with
  | nil => exact absurd (List.cons.inj h).1 ha
  | cons b later =>
    obtain ⟨rfl, hacts⟩ := List.cons.inj h
    exact ⟨later, rfl, hacts⟩

theorem ordered_look {s : State} (h : Ordered s) (due : Bool) : Ordered (s.step (.look due)) := by
  by_cases hl : s.stage = .looking
  · have hr : .restore ∉ s.acts := h.restore_due (by simp [hl])
    have hnone : ∀ after before, s.acts = after ++ .cancel :: before → after.count .tick = 0 := by
      intro after before hacts
      simpa [hl] using h.ticks_le after before hacts
    simp only [step, if_pos hl]
    split
    · -- the look ticks: it is the one tick that a cancel can still be followed by
      refine ⟨?_, by simp, ?_, by simp, by simpa using hr, by simp⟩
      · simpa using h.signal_iff
      · intro after before hacts
        obtain ⟨later, rfl, hacts'⟩ := cons_split (by decide) hacts
        simpa using hnone later before hacts'
    · refine ⟨h.signal_iff, by simp, ?_, by simp, fun _ => hr, by simp⟩
      intro after before hacts
      simp [hnone after before hacts]
  · rw [show s.step (.look due) = s by simp [step, hl]]
    exact h

theorem ordered_stir {s : State} (h : Ordered s) : Ordered (s.step .stir) := by
  cases hst : s.stage with
  | asleep i =>
    have hr : .restore ∉ s.acts := h.restore_due (by simp [hst])
    by_cases hc : s.signal = .cancelled
    · -- cancelled: the loop is left, with as many ticks after the cancel as before
      have hstep : s.step .stir = { s with stage := .restoring } := by
        simp [step, hst, hc, Signal.sleep]
      rw [hstep]
      refine ⟨h.signal_iff, fun _ => h.signal_iff.1 hc, ?_, by simp, fun _ => hr, by simp⟩
      intro after before hacts
      simpa [hst] using h.ticks_le after before hacts
    · have hn : .cancel ∉ s.acts := fun hm => hc (h.signal_iff.2 hm)
      have hstep : s.step .stir = { s with signal := .untouched, stage := .looking } := by
        cases hs : s.signal with
        | cancelled => exact absurd hs hc
        | untouched => simp [step, hst, hs, Signal.sleep]
        | woken => simp [step, hst, hs, Signal.sleep]
      rw [hstep]
      refine ⟨by simpa using hn, by simp, ?_, by simp, fun _ => hr, by simp⟩
      intro after before hacts
      exact absurd (hacts ▸ List.mem_append_right after (List.mem_cons_self ..)) hn
  | looking => simpa [step, hst] using h
  | restoring => simpa [step, hst] using h
  | done => simpa [step, hst] using h

theorem ordered_restore {s : State} (h : Ordered s) : Ordered (s.step .restore) := by
  by_cases hl : s.stage = .restoring
  · have hc : .cancel ∈ s.acts := h.left_cancelled (.inl hl)
    simp only [step, if_pos hl]
    refine ⟨?_, ?_, ?_, fun _ => ⟨s.acts, rfl, h.restore_due (by simp [hl])⟩, by simp, by simp⟩
    · simpa using h.signal_iff
    · exact fun _ => List.mem_cons_of_mem _ hc
    · intro after before hacts
      obtain ⟨later, rfl, hacts'⟩ := cons_split (by decide) hacts
      simpa [hl] using h.ticks_le later before hacts'
  · rw [show s.step .restore = s by simp [step, hl]]
    exact h

theorem ordered_change {s : State} (h : Ordered s) (interval : Nat) :
    Ordered (s.step (.change interval)) := by
  simp only [step]
  split
  · exact h
  · exact ⟨h.signal_iff, h.left_cancelled, h.ticks_le, h.restore_last, h.restore_due,
      fun _ _ _ => .inr (.inr rfl)⟩

theorem ordered_wake {s : State} (h : Ordered s) : Ordered (s.step .wake) := by
  refine ⟨?_, h.left_cancelled, h.ticks_le, h.restore_last, h.restore_due, ?_⟩
  · show s.signal.wake = .cancelled ↔ .cancel ∈ s.acts
    rw [← h.signal_iff]
    cases s.signal <;> simp [Signal.wake]
  · intro i _ _
    show s.signal.wake = .woken ∨ s.signal.wake = .cancelled ∨ _
    cases s.signal <;> simp [Signal.wake]

theorem ordered_cancel {s : State} (h : Ordered s) : Ordered (s.step .cancel) := by
  simp only [step]
  split
  · exact h
  · rename_i hn
    have hc : .cancel ∉ s.acts := fun hm => hn (.inr (hasCancelled_iff.2 hm))
    refine ⟨by simp [Signal.cancel], by simp, ?_, ?_, by simpa using h.restore_due,
      fun _ _ _ => .inr (.inl rfl)⟩
    · -- the cancel is the only one, so nothing has happened after it
      intro after before hacts
      cases after with
      | nil => simp
      | cons a later =>
        have hacts : s.acts = later ++ .cancel :: before := (List.cons.inj hacts).2
        exact absurd (hacts ▸ List.mem_append_right later (List.mem_cons_self ..)) hc
    · exact fun hd => absurd (h.left_cancelled (.inr hd)) hc

theorem ordered_step {s : State} (h : Ordered s) (step : Step) : Ordered (s.step step) := by
  cases step with
  | look due => exact ordered_look h due
  | stir => exact ordered_stir h
  | restore => exact ordered_restore h
  | change interval => exact ordered_change h interval
  | wake => exact ordered_wake h
  | cancel => exact ordered_cancel h

theorem ordered_run {s : State} (h : Ordered s) (steps : List Step) : Ordered (s.run steps) := by
  induction steps generalizing s with
  | nil => exact h
  | cons step rest ih => exact ih (ordered_step h step)

/-! ## Once cancelled -/

theorem cancelled_run {s : State} (h : s.signal = .cancelled) (steps : List Step) :
    (s.run steps).signal = .cancelled := by
  induction steps generalizing s with
  | nil => exact h
  | cons step rest ih => exact ih (cancelled_step h step)

/-- A cancelled playback never goes back to an earlier stage. -/
theorem left_step {s : State} (h : s.signal = .cancelled) (step : Step) :
    (s.step step).stage.left ≤ s.stage.left := by
  cases step with
  | look due =>
    simp only [State.step]
    split
    · simp_all [Stage.left]
    · exact Nat.le_refl _
  | stir =>
    simp only [State.step]
    split
    · simp_all [Stage.left, Signal.sleep]
    · exact Nat.le_refl _
  | restore =>
    simp only [State.step]
    split <;> simp [Stage.left]
  | wake => exact Nat.le_refl _
  | _ =>
    simp only [State.step]
    split <;> exact Nat.le_refl _

theorem left_run {s : State} (h : s.signal = .cancelled) (steps : List Step) :
    (s.run steps).stage.left ≤ s.stage.left := by
  induction steps generalizing s with
  | nil => exact Nat.le_refl _
  | cons step rest ih => exact Nat.le_trans (ih (cancelled_step h step)) (left_step h step)

/-- A step that takes a cancelled playback one stage further does so wherever it is taken. -/
theorem left_run_of_mem {step : Step} {n : Nat}
    (further : ∀ s : State, s.signal = .cancelled → s.stage.left ≤ n + 1 →
      (s.step step).stage.left ≤ n)
    {s : State} (h : s.signal = .cancelled) (hn : s.stage.left ≤ n + 1) {steps : List Step}
    (hm : step ∈ steps) : (s.run steps).stage.left ≤ n := by
  obtain ⟨before, after, rfl⟩ := List.append_of_mem hm
  have hb := cancelled_run h before
  have hleft := further _ hb (Nat.le_trans (left_run h before) hn)
  rw [run_append]
  exact Nat.le_trans (left_run (cancelled_step hb step) after) hleft

theorem left_look {s : State} (due : Bool) : (s.step (.look due)).stage.left ≤ 2 := by
  cases hst : s.stage <;> simp [step, hst, Stage.left]

theorem left_stir {s : State} (h : s.signal = .cancelled) (hn : s.stage.left ≤ 2) :
    (s.step .stir).stage.left ≤ 1 := by
  cases hst : s.stage <;> simp_all [step, Stage.left, Signal.sleep]

theorem left_restore {s : State} (hn : s.stage.left ≤ 1) :
    (s.step .restore).stage.left ≤ 0 := by
  cases hst : s.stage <;> simp_all [step, Stage.left]

/-- A cancelled playback is done once its loop has been allowed to look, to wake up and to put its
effect back, whatever else happens in between. -/
theorem done_of_sublist {s : State} (h : s.signal = .cancelled) {due : Bool} {later : List Step}
    (hs : [.look due, .stir, .restore].Sublist later) : (s.run later).stage = .done := by
  obtain ⟨first, rest, rfl, hlook, hs⟩ := List.cons_sublist_iff.1 hs
  obtain ⟨second, third, rfl, hstir, hs⟩ := List.cons_sublist_iff.1 hs
  have hrestore : .restore ∈ third := List.singleton_sublist.1 hs
  have h₁ := left_run_of_mem (fun _ _ _ => left_look due) h (n := 2)
    (by cases s.stage <;> simp [Stage.left]) hlook
  have h₂ := left_run_of_mem (fun _ => left_stir) (cancelled_run h first) h₁ hstir
  have h₃ := left_run_of_mem (fun _ _ => left_restore)
    (cancelled_run (cancelled_run h first) second) h₂ hrestore
  rw [run_append, run_append]
  cases hst : (((s.run first).run second).run third).stage <;> simp_all [Stage.left]

/-! ## Every interleaving -/

/-- Whatever order the steps of a playback and its owner come in.  Once there was a cancel the
signal is cancelled for good, and after it there is at most one tick.  The effect is put back once,
as the last thing that happens, when the loop ends, and not before; the loop does end if it was
cancelled and is allowed to go on.  And a playback that is asleep for an interval that is no longer
its effect's has been woken or cancelled, or its owner is about to wake it. -/
theorem discipline_kept (interval : Nat) (steps : List Step) :
    let s := (start interval).run steps
    (s.hasCancelled = true → ∀ later, (s.run later).signal = .cancelled) ∧
    (∀ after before, s.acts = after ++ .cancel :: before → after.count .tick ≤ 1) ∧
    (s.stage = .done →
      ∃ before, s.acts = .restore :: before ∧ .restore ∉ before ∧ .cancel ∈ before) ∧
    (s.stage ≠ .done → .restore ∉ s.acts) ∧
    (s.hasCancelled = true → ∀ due later, [.look due, .stir, .restore].Sublist later →
      (s.run later).stage = .done) ∧
    ∀ i, s.stage = .asleep i → i ≠ s.interval →
      s.signal = .woken ∨ s.signal = .cancelled ∨ s.hasChanged = true := by
  intro s
  have h : Ordered s := ordered_run (ordered_start interval) steps
  have hsignal : s.hasCancelled = true → s.signal = .cancelled :=
    fun hc => h.signal_iff.2 (hasCancelled_iff.1 hc)
  refine ⟨fun hc => cancelled_run (hsignal hc), ?_, ?_, h.restore_due,
    fun hc _ _ => done_of_sublist (hsignal hc), h.told⟩
  · intro after before hacts
    refine Nat.le_trans (h.ticks_le after before hacts) ?_
    split <;> decide
  · intro hd
    obtain ⟨before, hacts, hr⟩ := h.restore_last hd
    have hc := h.left_cancelled (.inr hd)
    rw [hacts] at hc
    exact ⟨before, hacts, hr, (List.mem_cons.1 hc).resolve_left (by decide)⟩

/-- The interval is changed while the playback sleeps, the sleep times out before the owner wakes
the playback, and the cancel comes before the next look. -/
def lateWake : List Step :=
  [.look true, .change 10, .stir, .wake, .cancel, .wake, .look true, .stir, .restore]

theorem discipline_kept_lateWake :
    let s := (start 30).run lateWake
    s.acts = [.restore, .tick, .cancel, .tick] ∧ s.stage = .done ∧
      ([.restore, .tick] : List Act).count .tick ≤ 1 :=
  ⟨by decide, by decide, (discipline_kept 30 lateWake).2.1 [.restore, .tick] [.tick] (by decide)⟩

/-! ## The playback of a desk -/

/-- A playback that has ticked once and then `n` times, and sleeps. -/
def resting (interval n : Nat) : State :=
  ⟨interval, .untouched, .asleep interval, false, List.replicate (n + 1) .tick⟩

theorem run_start (interval : Nat) (due : Bool) :
    (start interval).run [.look due] = resting interval 0 := by
  simp [run, step, start, resting, hasTicked]

theorem run_tick (interval n : Nat) :
    (resting interval n).run [.stir, .look true] = resting interval (n + 1) := by
  simp [run, step, resting, Signal.sleep, List.replicate_succ]

theorem run_edit (interval interval' n : Nat) :
    (resting interval n).run [.change interval', .wake, .stir, .look false] =
      resting interval' n := by
  simp [run, step, resting, Signal.sleep, Signal.wake, hasTicked, hasCancelled,
    List.replicate_succ]

theorem run_stop (interval n : Nat) :
    (resting interval n).run [.cancel, .stir, .restore] =
      ⟨interval, .cancelled, .done, false,
        .restore :: .cancel :: List.replicate (n + 1) .tick⟩ := by
  simp [run, step, resting, Signal.sleep, Signal.cancel, hasCancelled]

end State

end Interleaving

namespace Playback

open Interleaving

variable {σ : Type} [Sink σ]

/-- However the playback of a desk goes on, with its ticks and the edits of its effect, it takes the
steps of a playback and its owner in one of the orders they can come in. -/
theorem resting_of_ticksAt {ts : List Nat} {x y : Playback × Stage σ} (h : TicksAt ts x y)
    (n : Nat) : ∃ steps, (State.resting x.1.effect.interval n).run steps =
      State.resting y.1.effect.interval (n + ts.length) := by
  induction h generalizing n with
  | rest x => exact ⟨[], rfl⟩
  | @tick p s ts y t _ ih =>
    obtain ⟨steps, hsteps⟩ := ih (n + 1)
    rw [interval_tick] at hsteps
    refine ⟨[.stir, .look true] ++ steps, ?_⟩
    rw [State.run_append, State.run_tick, hsteps, List.length_cons, Nat.add_right_comm n 1]
    rfl
  | @edit p s s' e ts y _ _ ih =>
    obtain ⟨steps, hsteps⟩ := ih n
    refine ⟨[.change e.interval, .wake, .stir, .look false] ++ steps, ?_⟩
    rw [State.run_append, State.run_edit, hsteps]

/-- The whole life of a playback, from its start to its stop. -/
theorem interleaved_of_ticksAt {effect : Effect} {now : Nat} {s : Stage σ} {ts : List Nat}
    {y : Playback × Stage σ} (h : TicksAt ts (start effect now s) y) :
    ∃ steps, (State.start effect.interval).run steps =
      ⟨y.1.effect.interval, .cancelled, .done, false,
        .restore :: .cancel :: List.replicate (ts.length + 1) .tick⟩ := by
  obtain ⟨steps, hsteps⟩ := resting_of_ticksAt h 0
  have hstart : (start effect now s).1.effect.interval = effect.interval := interval_tick _ _
  rw [hstart, Nat.zero_add] at hsteps
  refine ⟨[.look true] ++ steps ++ [.cancel, .stir, .restore], ?_⟩
  rw [State.run_append, State.run_append, State.run_start, hsteps, State.run_stop]

end Playback

end LightingDesk
