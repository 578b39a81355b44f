import LightingDesk.Proofs.Performers

/-!
# The pace of a playback

A playback sleeps until its next tick is due, ticks, and goes back to sleep.  `Elapses` is this loop
taken literally, up to an instant; it comes to an end whenever the interval is positive, and then at
what `Playback.wait` computes in one go.  `TicksAt` follows a playback through its ticks and the
changes that are made to its effect in between.

    the loop ends, at one place                                  (elapses_iff)
    waiting until one instant and then another is waiting until
    the later one                                                (wait_wait)
    looking at the clock at every instant finds what is due      (timetable_dense)
-/

namespace LightingDesk

/-! ## Instants -/

namespace Pacer

variable {interval stop : Nat}

theorem due_of_lt (p : Pacer) (hi : 0 < interval) (h : stop < p.last + interval) :
    p.due interval stop = 0 := by
  unfold due
  exact Nat.div_eq_of_lt (by omega)

theorem due_of_le (p : Pacer) (hi : 0 < interval) (h : p.last + interval ≤ stop) :
    p.due interval stop = (⟨p.last + interval⟩ : Pacer).due interval stop + 1 := by
  unfold due
  rw [Nat.div_eq_sub_div hi (by omega), Nat.sub_sub]

theorem instants_of_lt (p : Pacer) (hi : 0 < interval) (h : stop < p.last + interval) :
    p.instants interval stop = [] := by
  unfold instants
  rw [due_of_lt p hi h]
  rfl

theorem instants_of_le (p : Pacer) (hi : 0 < interval) (h : p.last + interval ≤ stop) :
    p.instants interval stop =
      (p.last + interval) :: (⟨p.last + interval⟩ : Pacer).instants interval stop := by
  unfold instants
  rw [due_of_le p hi h, List.range_succ_eq_map, List.map_cons, List.map_map]
  congr 1
  · omega
  · refine List.map_congr_left ?_
    intro k _
    show p.last + (k + 1 + 1) * interval = p.last + interval + (k + 1) * interval
    rw [Nat.add_mul (k + 1) 1, Nat.one_mul]
    omega

theorem advance_of_lt (p : Pacer) (hi : 0 < interval) (h : stop < p.last + interval) :
    p.advance interval stop = p := by
  unfold advance
  rw [due_of_lt p hi h, Nat.zero_mul]
  rfl

theorem advance_of_le (p : Pacer) (hi : 0 < interval) (h : p.last + interval ≤ stop) :
    p.advance interval stop = (⟨p.last + interval⟩ : Pacer).advance interval stop := by
  unfold advance
  rw [due_of_le p hi h, Nat.add_mul, Nat.one_mul, Nat.add_comm (_ * _), Nat.add_assoc]

/-- Together with the last time, what falls due in a span of waiting is spaced evenly. -/
theorem cons_instants (now interval span : Nat) :
    now :: (⟨now⟩ : Pacer).instants interval (now + span) =
      (List.range (1 + span / interval)).map fun k => now + k * interval := by
  have hdue : (⟨now⟩ : Pacer).due interval (now + span) = span / interval := by
    unfold due
    rw [Nat.add_sub_cancel_left]
  unfold instants
  rw [hdue, Nat.add_comm 1, List.range_succ_eq_map, List.map_cons, List.map_map, Nat.zero_mul]
  rfl

end Pacer

/-! ## Timetables -/

/-- The instants at which something is done that was last done at `last`, if at each of some
moments, in order, it is looked whether it is due.  A moment is an instant and the interval then in
force. -/
def timetable (last : Nat) : List (Nat × Nat) → List Nat
  | [] => []
  | (t, interval) :: rest =>
    if last + interval ≤ t then t :: timetable t rest else timetable last rest

theorem timetable_append (last : Nat) (moments moments' : List (Nat × Nat)) :
    timetable last (moments ++ moments') =
      timetable last moments ++ timetable ((timetable last moments).getLastD last) moments' := by
  induction moments generalizing last with
  | nil => rfl
  | cons moment rest ih =>
    rw [List.cons_append, timetable, timetable]
    split
    · rw [ih, List.cons_append, List.getLastD_cons]
    · exact ih last

/-- Looking at every instant finds everything that is due, when it is due. -/
theorem timetable_dense {last now interval : Nat} (h : last ≤ now) (h' : now < last + interval)
    (span : Nat) :
    timetable last ((List.range' (now + 1) span).map fun t => (t, interval)) =
      (⟨last⟩ : Pacer).instants interval (now + span) := by
  have hi : 0 < interval := by omega
  induction span generalizing last now with
  | zero => exact (Pacer.instants_of_lt ⟨last⟩ hi h').symm
  | succ span ih =>
    rw [List.range'_succ, List.map_cons, timetable, ← Nat.add_assoc, Nat.add_right_comm now span 1]
    by_cases hd : last + interval ≤ now + 1
    · have hn : last + interval = now + 1 := by omega
      rw [if_pos hd, ih (Nat.le_refl _) (by omega),
        Pacer.instants_of_le ⟨last⟩ hi (show last + interval ≤ now + 1 + span by omega)]
      show _ = (last + interval) :: (⟨last + interval⟩ : Pacer).instants interval (now + 1 + span)
      rw [hn]
    · rw [if_neg hd]
      exact ih (by omega) (by omega)

/-- What is done follows what was done before by the interval then in force at least. -/
theorem timetable_apart {shortest : Nat} (last : Nat) {moments : List (Nat × Nat)}
    (h : ∀ moment ∈ moments, shortest ≤ moment.2) :
    (last :: timetable last moments).Pairwise fun t t' => t + shortest ≤ t' := by
  induction moments generalizing last with
  | nil => simp [timetable]
  | cons moment rest ih =>
    have hm := h moment (.head _)
    have hr : ∀ moment ∈ rest, shortest ≤ moment.2 := fun m hm => h m (.tail _ hm)
    rw [timetable]
    split
    · rename_i hd
      have later := ih moment.1 hr
      refine List.pairwise_cons.2 ⟨?_, later⟩
      intro t ht
      rcases List.mem_cons.1 ht with rfl | ht
      · omega
      · have := List.rel_of_pairwise_cons later ht
        omega
    · exact ih last hr

/-! ## Playbacks -/

variable {σ : Type} [Sink σ]

/-- A change that the desk makes to an effect: a light is taken out of a highlight or put into it,
or a chase is given another delay. -/
inductive Effect.Edited : Effect × Stage σ → Effect × Stage σ → Prop
  | drop (h : Highlight) (s : Stage σ) (i : Nat) :
      Edited (.highlight h, s)
        (.highlight (Desk.dropLight i (h, s)).1, (Desk.dropLight i (h, s)).2)
  | light (h : Highlight) (s : Stage σ) (i : Nat) (f : Fixture) :
      Edited (.highlight h, s) (.highlight (h.askResync.add i f s.frame), s)
  | retime (c : Chase) (s : Stage σ) (delay : Nat) :
      Edited (.chase c, s) (.chase (c.setDelay delay), s)

theorem Effect.Edited.name_eq {x y : Effect × Stage σ} (h : Effect.Edited x y) :
    y.1.name = x.1.name := by
  cases h <;> rfl

namespace Playback

/-- The loop of a playback up to the instant `stop`, with the instants of its ticks: while the next
tick is due by then it sleeps until it is due, and ticks. -/
inductive Elapses (stop : Nat) : List Nat → Playback × Stage σ → Playback × Stage σ → Prop
  | sleep {p : Playback} {s : Stage σ} (h : stop < p.pacer.last + p.effect.interval) :
      Elapses stop [] (p, s) (p, s)
  | beat {p : Playback} {s : Stage σ} {ts : List Nat} {q : Playback × Stage σ}
      (h : p.pacer.last + p.effect.interval ≤ stop)
      (rest : Elapses stop ts
        (tick { p with pacer := ⟨p.pacer.last + p.effect.interval⟩ } s) q) :
      Elapses stop ((p.pacer.last + p.effect.interval) :: ts) (p, s) q

/-- How a playback goes on that ticks at some instants, while its effect may be edited before,
between and after its ticks. -/
inductive TicksAt : List Nat → Playback × Stage σ → Playback × Stage σ → Prop
  | rest (x : Playback × Stage σ) : TicksAt [] x x
  | tick {p : Playback} {s : Stage σ} {ts : List Nat} {y : Playback × Stage σ} (t : Nat)
      (later : TicksAt ts (tick { p with pacer := ⟨t⟩ } s) y) : TicksAt (t :: ts) (p, s) y
  | edit {p : Playback} {s s' : Stage σ} {e : Effect} {ts : List Nat} {y : Playback × Stage σ}
      (edited : Effect.Edited (p.effect, s) (e, s'))
      (later : TicksAt ts ({ p with effect := e }, s') y) : TicksAt ts (p, s) y

/-! ## Single ticks -/

/-- A tick does not look at the pacer. -/
theorem tick_paced (p : Playback) (pacer : Pacer) (s : Stage σ) :
    tick { p with pacer } s = ({ (p.tick s).1 with pacer }, (p.tick s).2) := by
  unfold tick
  dsimp only
  split
  · split <;> rfl
  · rfl

theorem pacer_tick (p : Playback) (s : Stage σ) : (p.tick s).1.pacer = p.pacer := by
  unfold tick
  split
  · dsimp only
    split <;> rfl
  · rfl

theorem interval_tick (p : Playback) (s : Stage σ) :
    (p.tick s).1.effect.interval = p.effect.interval := by
  unfold tick
  split
  · dsimp only
    split
    · rfl
    · exact (p.effect.interval_tick s.frame).2
  · rfl

/-! ## Waiting -/

theorem wait_of_lt {p : Playback} {stop : Nat} (hi : 0 < p.effect.interval)
    (h : stop < p.pacer.last + p.effect.interval) (s : Stage σ) : p.wait stop s = (p, s) := by
  rw [wait, p.pacer.due_of_lt hi h, p.pacer.advance_of_lt hi h]
  rfl

/-- What waiting does begins with the first tick that is due. -/
theorem wait_of_le {p : Playback} {stop : Nat} (hi : 0 < p.effect.interval)
    (h : p.pacer.last + p.effect.interval ≤ stop) (s : Stage σ) :
    p.wait stop s =
      let q := tick { p with pacer := ⟨p.pacer.last + p.effect.interval⟩ } s
      q.1.wait stop q.2 := by
  rw [tick_paced]
  show ticks (p.pacer.due p.effect.interval stop)
      { p with pacer := p.pacer.advance p.effect.interval stop } s =
    wait { (p.tick s).1 with pacer := ⟨p.pacer.last + p.effect.interval⟩ } stop (p.tick s).2
  rw [wait]
  dsimp only
  rw [interval_tick, p.pacer.due_of_le hi h, p.pacer.advance_of_le hi h, ticks, tick_paced]

/-! ## The loop -/

theorem Elapses.unique {stop : Nat} {ts ts' : List Nat} {x y y' : Playback × Stage σ}
    (h : Elapses stop ts x y) (h' : Elapses stop ts' x y') : ts = ts' ∧ y = y' := by
  induction h generalizing ts' with
  | sleep asleep =>
    cases h' with
    | sleep => exact ⟨rfl, rfl⟩
    | beat due => omega
  | beat due _ ih =>
    cases h' with
    | sleep asleep => omega
    | beat _ rest =>
      obtain ⟨hts, hy⟩ := ih rest
      exact ⟨congrArg _ hts, hy⟩

/-- With a positive interval the loop comes to its end: every beat leaves less to wait for. -/
theorem elapses_wait (stop : Nat) (p : Playback) (s : Stage σ) (hi : 0 < p.effect.interval) :
    Elapses stop (p.pacer.instants p.effect.interval stop) (p, s) (p.wait stop s) := by
  induction h : stop - p.pacer.last using Nat.strongRecOn generalizing p s with
  | ind left ih =>
    by_cases hd : p.pacer.last + p.effect.interval ≤ stop
    · rw [p.pacer.instants_of_le hi hd, wait_of_le hi hd]
      let q := tick { p with pacer := ⟨p.pacer.last + p.effect.interval⟩ } s
      have hq : q.1.effect.interval = p.effect.interval := interval_tick _ s
      have hp : q.1.pacer = ⟨p.pacer.last + p.effect.interval⟩ := pacer_tick _ s
      have later := ih (stop - q.1.pacer.last) (by rw [hp, ← h]; dsimp only; omega) q.1 q.2
        (by rw [hq]; exact hi) rfl
      rw [hq, hp] at later
      exact .beat hd later
    · rw [p.pacer.instants_of_lt hi (by omega), wait_of_lt hi (by omega)]
      exact .sleep (by omega)

/-- The loop ends, and in one way only: having ticked whenever a tick was due, where waiting
ends. -/
theorem elapses_iff {stop : Nat} {p : Playback} {s : Stage σ} (hi : 0 < p.effect.interval)
    {ts : List Nat} {q : Playback × Stage σ} :
    Elapses stop ts (p, s) q ↔
      ts = p.pacer.instants p.effect.interval stop ∧ q = p.wait stop s := by
  constructor
  · intro h
    exact h.unique (elapses_wait stop p s hi)
  · rintro ⟨rfl, rfl⟩
    exact elapses_wait stop p s hi

/-- A loop that has been interrupted goes on as if it had not been. -/
theorem Elapses.trans {a b : Nat} {ts ts' : List Nat} {x y z : Playback × Stage σ}
    (h : Elapses a ts x y) (hab : a ≤ b) (h' : Elapses b ts' y z) : Elapses b (ts ++ ts') x z := by
  induction h with
  | sleep => exact h'
  | beat due _ ih => exact .beat (by omega) (ih h')

/-- When the loop ends, no tick is due any more. -/
theorem Elapses.asleep {stop : Nat} {ts : List Nat} {x y : Playback × Stage σ}
    (h : Elapses stop ts x y) : stop < y.1.pacer.last + y.1.effect.interval := by
  induction h with
  | sleep asleep => exact asleep
  | beat _ _ ih => exact ih

theorem Elapses.interval_eq {stop : Nat} {ts : List Nat} {x y : Playback × Stage σ}
    (h : Elapses stop ts x y) : y.1.effect.interval = x.1.effect.interval := by
  induction h with
  | sleep => rfl
  | beat _ _ ih => exact ih.trans (interval_tick _ _)

theorem Elapses.last_le {stop : Nat} {ts : List Nat} {x y : Playback × Stage σ}
    (h : Elapses stop ts x y) (hx : x.1.pacer.last ≤ stop) : y.1.pacer.last ≤ stop := by
  induction h with
  | sleep => exact hx
  | beat due _ ih => exact ih (by rw [pacer_tick]; exact due)

theorem wait_wait {p : Playback} (hi : 0 < p.effect.interval) {a b : Nat} (hab : a ≤ b)
    (s : Stage σ) : (p.wait a s).1.wait b (p.wait a s).2 = p.wait b s := by
  have first := elapses_wait a p s hi
  have hi' : 0 < (p.wait a s).1.effect.interval := by
    rw [first.interval_eq]
    exact hi
  have second := elapses_wait b (p.wait a s).1 (p.wait a s).2 hi'
  exact ((first.trans hab second).unique (elapses_wait b p s hi)).2

/-! ## Ticks and edits -/

/-- An effect that is about to tick for the first time. -/
def fresh (effect : Effect) (now : Nat) : Playback :=
  ⟨effect, ⟨now⟩, Worker.spawn ("effect-" ++ effect.name.text) .waits⟩

theorem ticksAt_start (effect : Effect) (now : Nat) (s : Stage σ) :
    TicksAt [now] (fresh effect now, s) (start effect now s) := .tick now (.rest _)

namespace TicksAt

theorem append {ts ts' : List Nat} {x y z : Playback × Stage σ} (h : TicksAt ts x y)
    (h' : TicksAt ts' y z) : TicksAt (ts ++ ts') x z := by
  induction h with
  | rest => exact h'
  | tick t _ ih => exact .tick t (ih h')
  | edit edited _ ih => exact .edit edited (ih h')

theorem of_elapses {stop : Nat} {ts : List Nat} {x y : Playback × Stage σ}
    (h : Elapses stop ts x y) : TicksAt ts x y := by
  induction h with
  | sleep => exact .rest _
  | beat _ _ ih => exact .tick _ ih

/-- The pacer remembers the last tick. -/
theorem last_eq {ts : List Nat} {x y : Playback × Stage σ} (h : TicksAt ts x y) :
    y.1.pacer.last = ts.getLastD x.1.pacer.last := by
  induction h with
  | rest => rfl
  | tick t _ ih => rw [ih, pacer_tick, List.getLastD_cons]
  | edit _ _ ih => exact ih

theorem name_eq {ts : List Nat} {x y : Playback × Stage σ} (h : TicksAt ts x y) :
    y.1.effect.name = x.1.effect.name := by
  induction h with
  | rest => rfl
  | tick t _ ih => exact ih.trans (name_tick _ _)
  | edit edited _ ih =>
    exact ih.trans edited.name_eq

end TicksAt

/-! ## Looking once -/

theorem recheck_of_le {p : Playback} {now : Nat} (h : p.pacer.last + p.effect.interval ≤ now)
    (s : Stage σ) : p.recheck now s = tick { p with pacer := ⟨now⟩ } s :=
  if_pos (decide_eq_true h)

theorem recheck_of_lt {p : Playback} {now : Nat} (h : now < p.pacer.last + p.effect.interval)
    (s : Stage σ) : p.recheck now s = (p, s) :=
  if_neg fun due => absurd (of_decide_eq_true due) (Nat.not_le.2 h)

/-- Who looks at the clock ticks if a tick is due by then. -/
theorem ticksAt_recheck (p : Playback) (now : Nat) (s : Stage σ) :
    TicksAt (timetable p.pacer.last [(now, p.effect.interval)]) (p, s) (p.recheck now s) := by
  by_cases h : p.pacer.last + p.effect.interval ≤ now
  · rw [recheck_of_le h, timetable, if_pos h]
    exact .tick now (.rest _)
  · rw [recheck_of_lt (Nat.lt_of_not_le h), timetable, if_neg h]
    exact .rest _

theorem interval_recheck (p : Playback) (now : Nat) (s : Stage σ) :
    (p.recheck now s).1.effect.interval = p.effect.interval := by
  unfold recheck
  split
  · exact interval_tick _ s
  · rfl

end Playback

end LightingDesk
