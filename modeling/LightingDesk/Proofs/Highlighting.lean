import LightingDesk.Proofs.Steady
import Mathlib.Data.List.Induction

/-!
# Highlights, undone

Fixtures without a channel in common are highlighted, left and pulsed in any order, on a sink on
which no write fails and which nobody else writes to.  Whatever has happened before, a fixture that
is left shows what it showed at first, and so does the whole frame once the highlight has put back
what is left of it.

    saved levels that are given back show                (agree_restored)
    every call keeps what is needed to undo the others   (undoable_perform)
    a highlight can always be undone                     (undone_after_calls)
-/

namespace LightingDesk

/-! ## Levels that are given back -/

/-- A frame that differs only in fixtures whose levels have been saved is the same again when they
have been given back. -/
theorem agree_restored {live : Frame} {saved : List (Fixture × List UInt8)}
    (hs : ∀ light ∈ saved, light.2 = light.1.values live) {frame : Frame}
    (ha : frame.AgreeOff (fun c => ∃ light ∈ saved, light.1.Owns c) live) :
    (frame.after (saved.map fun light => light.1.setValues light.2)).Agree live := by
  induction saved generalizing frame with
  | nil => exact fun c h1 h2 => ha c h1 h2 (by simp)
  | cons light rest ih =>
    rw [List.map_cons, Frame.after_cons]
    refine ih (fun l hl => hs l (List.mem_cons_of_mem _ hl)) ?_
    intro c h1 h2 hc
    by_cases ho : light.1.Owns c
    · rw [hs light (List.mem_cons_self ..)]
      exact Fixture.level_setValues light.1 frame live ho
    · have hn : ¬ (light.1.setValues light.2).touches c :=
        fun ht => ho ((Fixture.staysIn_setValues light.1 light.2).touches c ht)
      rw [level_foldl_apply frame hn]
      refine ha c h1 h2 ?_
      rintro ⟨l, hl, hl'⟩
      rcases List.mem_cons.1 hl with rfl | hl
      · exact ho hl'
      · exact hc ⟨l, hl, hl'⟩

namespace Highlight

variable {σ : Type} [Sink σ]

/-! ## Calls -/

/-- What can be asked of a highlight; fixtures go by their places in a rig. -/
inductive Call
  | light (i : Nat)
  | drop (i : Nat)
  | resync
  | tick
deriving DecidableEq, Repr

/-- Does what is asked. -/
def perform (rig : List Fixture) (call : Call) (x : Highlight × Stage σ) : Highlight × Stage σ :=
  match call with
  | .light i =>
    match rig[i]? with
    | some f => (x.1.add i f x.2.frame, x.2)
    | none => x
  | .drop i => Desk.dropLight i x
  | .resync => (x.1.askResync, x.2)
  | .tick => ((x.1.tick x.2.frame).1, x.2.play (.effect .highlight) (x.1.tick x.2.frame).2)

/-- What is answered: whether the call has added a light, or taken one away. -/
def answer (h : Highlight) : Call → Option Bool
  | .light i => some !h.contains i
  | .drop i => some (h.contains i)
  | .resync | .tick => none

/-- Does all that is asked, one after the other. -/
def performAll (rig : List Fixture) (calls : List Call) (x : Highlight × Stage σ) :
    Highlight × Stage σ :=
  calls.foldl (fun x call => perform rig call x) x

theorem performAll_append (rig : List Fixture) (calls calls' : List Call)
    (x : Highlight × Stage σ) :
    performAll rig (calls ++ calls') x = performAll rig calls' (performAll rig calls x) :=
  List.foldl_append

/-- Ends the highlight. -/
def putBack (x : Highlight × Stage σ) : Highlight × Stage σ :=
  (x.1.restore.1, x.2.play (.effect .highlight) x.1.restore.2)

/-! ## Which fixtures are highlighted -/

/-- The last that was asked about the fixture at `i` is to light it. -/
def LastLit (calls : List Call) (i : Nat) : Prop :=
  ∃ before after, calls = before ++ .light i :: after ∧ .drop i ∉ after

theorem lastLit_concat (calls : List Call) (call : Call) (i : Nat) :
    LastLit (calls ++ [call]) i ↔ call = .light i ∨ call ≠ .drop i ∧ LastLit calls i := by
  constructor
  · rintro ⟨before, after, he, hd⟩
    rcases List.eq_nil_or_concat after with rfl | ⟨after, last, rfl⟩
    · exact .inl (List.singleton_inj.1 (List.append_inj' he rfl).2)
    · rw [List.concat_eq_append, ← List.cons_append, ← List.append_assoc] at he
      obtain ⟨hcalls, hlast⟩ := List.append_inj' he rfl
      rw [List.concat_eq_append, List.mem_append, List.mem_singleton, not_or] at hd
      refine .inr ⟨?_, before, after, hcalls, hd.1⟩
      rw [List.singleton_inj.1 hlast]
      exact fun e => hd.2 e.symm
  · rintro (rfl | ⟨hne, before, after, rfl, hd⟩)
    · exact ⟨calls, [], rfl, by simp⟩
    · refine ⟨before, after ++ [call], by simp, ?_⟩
      rw [List.mem_append, List.mem_singleton, not_or]
      exact ⟨hd, fun e => hne e.symm⟩

theorem mem_indices_perform {rig : List Fixture} {x : Highlight × Stage σ}
    (hp : Placed rig x.1.lights) (call : Call) (i : Nat) :
    i ∈ (perform rig call x).1.indices ↔
      (call = .light i ∧ i < rig.length) ∨ call ≠ .drop i ∧ i ∈ x.1.indices := by
  cases call with
  | light j =>
    rw [perform]
    split
    · rename_i f hf
      rw [mem_indices_add]
      have hj : j < rig.length := (List.getElem?_eq_some_iff.1 hf).1
      constructor
      · rintro (rfl | hi)
        · exact .inl ⟨rfl, hj⟩
        · exact .inr ⟨by simp, hi⟩
      · rintro (⟨he, -⟩ | ⟨-, hi⟩)
        · exact .inl (Call.light.inj he).symm
        · exact .inr hi
    · rename_i hn
      have hj : rig.length ≤ j := List.getElem?_eq_none_iff.1 hn
      constructor
      · exact fun hi => .inr ⟨by simp, hi⟩
      · rintro (⟨he, hi⟩ | ⟨-, hi⟩)
        · rw [Call.light.inj he] at hj
          omega
        · exact hi
  | drop j =>
    have hd : (perform rig (.drop j) x).1.indices = x.1.indices.erase j := x.1.indices_remove j
    have hnd : x.1.indices.Nodup := hp.nodup
    rw [hd, hnd.mem_erase_iff]
    simp [eq_comm]
  | resync => exact ⟨fun hi => .inr ⟨by simp, hi⟩, fun h => (h.resolve_left (by simp)).2⟩
  | tick => exact ⟨fun hi => .inr ⟨by simp, hi⟩, fun h => (h.resolve_left (by simp)).2⟩

/-! ## What every call keeps -/

theorem placed_perform {rig : List Fixture} {x : Highlight × Stage σ}
    (hp : Placed rig x.1.lights) (call : Call) : Placed rig (perform rig call x).1.lights := by
  cases call with
  | light i =>
    rw [perform]
    split
    · rename_i f hf
      exact placed_add hp hf x.2.frame
    · exact hp
  | drop i => exact placed_sublist hp (x.1.lights_remove_sublist i)
  | resync => exact hp
  | tick => exact hp

theorem placed_performAll {rig : List Fixture} {x : Highlight × Stage σ}
    (hp : Placed rig x.1.lights) (calls : List Call) :
    Placed rig (performAll rig calls x).1.lights := by
  induction calls generalizing x with
  | nil => exact hp
  | cons call rest ih => exact ih (placed_perform hp call)

theorem mem_indices_performAll (rig : List Fixture) (s : Stage σ) (calls : List Call) (i : Nat) :
    i ∈ (performAll rig calls (empty, s)).1.indices ↔ i < rig.length ∧ LastLit calls i := by
  induction calls using List.reverseRecOn with
  | nil => simp [performAll, empty, indices, LastLit]
  | append_singleton calls call ih =>
    have hp : Placed rig (performAll rig calls (empty, s)).1.lights :=
      placed_performAll (x := (empty, s)) ⟨by simp [empty], by simp [empty]⟩ calls
    rw [performAll_append, performAll, List.foldl_cons, List.foldl_nil, mem_indices_perform hp, ih,
      lastLit_concat]
    tauto

variable [LawfulSink σ]

theorem staysIn_remove (h : Highlight) (i : Nat) :
    ∀ job ∈ (h.remove i).2, job.StaysIn (1 ≤ ·) := by
  intro job hj
  rcases h.remove_cases i with hr | ⟨lit, before, after, -, hr⟩
  · rw [hr] at hj
    cases hj
  · rw [hr, List.mem_singleton] at hj
    rw [hj]
    exact (Fixture.staysIn_setValues _ _).mono fun c hc => (Fixture.le_of_owns hc).1

/-- No call touches what stands in front of the first channel. -/
theorem within_perform (rig : List Fixture) (call : Call) (x : Highlight × Stage σ) :
    x.2.Within (1 ≤ ·) (perform rig call x).2 := by
  cases call with
  | light i =>
    rw [perform]
    split <;> exact .refl _ _
  | drop i => exact Stage.within_play _ _ (staysIn_remove x.1 i)
  | resync => exact .refl _ _
  | tick =>
    refine Stage.within_play _ _ ?_
    intro job hj
    refine (Effect.staysIn_tick x.2.frame (.highlight x.1) job hj).mono fun c hc => ?_
    obtain ⟨lit, -, ho⟩ := owns_of_reach hc
    exact (Fixture.le_of_owns ho).1

theorem within_putBack (x : Highlight × Stage σ) : x.2.Within (1 ≤ ·) (putBack x).2 := by
  refine Stage.within_play _ _ ?_
  intro job hj
  obtain ⟨lit, -, rfl⟩ := List.mem_map.1 hj
  exact (Fixture.staysIn_setValues _ _).mono fun c hc => (Fixture.le_of_owns hc).1

theorem steady_perform {live : Frame} {rig : List Fixture} (apart : rig.Pairwise Fixture.Apart)
    {x : Highlight × Stage σ} (hs : Steady live x) (hp : Placed rig x.1.lights) (call : Call)
    (quiet : (perform rig call x).2.reported = x.2.reported) :
    Steady live (perform rig call x) := by
  cases call with
  | light i =>
    rw [perform]
    split
    · rename_i f hf
      exact Desk.steady_add apart hs hp hf
    · exact hs
  | drop i => exact Desk.steady_dropLight hs i quiet
  | resync => exact Desk.steady_askResync hs
  | tick =>
    -- a tick leaves the lights as they are and keeps to their reach
    have hw := Stage.within_play x.2 (.effect .highlight)
      (Effect.staysIn_tick x.2.frame (.highlight x.1))
    exact ⟨hs.saved_eq, hw.agreeOff quiet hs.agree⟩

/-- A steady highlight that is put back gives the frame back. -/
theorem agree_putBack {live : Frame} {x : Highlight × Stage σ} (hs : Steady live x)
    (quiet : (putBack x).2.reported = x.2.reported) : (putBack x).2.frame.Agree live := by
  have hjobs : x.1.restore.2 =
      (Piece.highlight x.1.lights).saved.map fun light => light.1.setValues light.2 :=
    Effect.restore_eq (.highlight x.1)
  have hplay : (putBack x).2.frame = x.2.frame.after x.1.restore.2 := Stage.frame_play quiet
  rw [hplay, hjobs]
  refine agree_restored ?_ (hs.agree.mono ?_)
  · intro light hl
    obtain ⟨lit, hm, rfl⟩ := List.mem_map.1 hl
    exact hs.saved_eq lit hm
  · intro c hc
    obtain ⟨lit, hm, ho⟩ := owns_of_reach hc
    exact ⟨(lit.fixture, lit.saved), List.mem_map.2 ⟨lit, hm, rfl⟩, ho⟩

/-- Everything needed to undo a highlight on a stage that began with a sink. -/
structure Undoable (rig : List Fixture) (sink : σ) (x : Highlight × Stage σ) : Prop where
  placed : Placed rig x.1.lights
  steady : Steady (Sink.frame sink) x
  within : (⟨sink, 0⟩ : Stage σ).Within (1 ≤ ·) x.2

theorem undoable_perform {rig : List Fixture} (apart : rig.Pairwise Fixture.Apart) {sink : σ}
    (reliable : Sink.Reliable sink) {x : Highlight × Stage σ} (h : Undoable rig sink x)
    (call : Call) : Undoable rig sink (perform rig call x) := by
  have hw := within_perform rig call x
  have quiet := (hw.reliable (h.within.reliable reliable).2).1
  exact ⟨placed_perform h.placed call, steady_perform apart h.steady h.placed call quiet,
    h.within.trans hw⟩

omit [LawfulSink σ] in
theorem undoable_empty (rig : List Fixture) (sink : σ) : Undoable rig sink (empty, ⟨sink, 0⟩) where
  placed := ⟨by simp [empty], by simp [empty]⟩
  steady := ⟨by simp [empty], fun _ _ _ _ => rfl⟩
  within := .refl _ _

theorem undoable_performAll {rig : List Fixture} (apart : rig.Pairwise Fixture.Apart) {sink : σ}
    (reliable : Sink.Reliable sink) {x : Highlight × Stage σ} (h : Undoable rig sink x)
    (calls : List Call) : Undoable rig sink (performAll rig calls x) := by
  induction calls generalizing x with
  | nil => exact h
  | cons call rest ih => exact ih (undoable_perform apart reliable h call)

/-! ## Undoing -/

/-- After any calls no fixture is highlighted twice, and those are highlighted that were lit and not
dropped since; just these answer that there is nothing to light.  A fixture that is dropped shows
what it showed at first, and what is put back in the end gives the whole first frame back. -/
theorem undone_after_calls {rig : List Fixture} (apart : rig.Pairwise Fixture.Apart) {sink : σ}
    (reliable : Sink.Reliable sink) (calls : List Call) :
    let x := performAll rig calls (empty, (⟨sink, 0⟩ : Stage σ))
    x.1.indices.Nodup ∧
    (∀ i, i ∈ x.1.indices ↔ i < rig.length ∧ LastLit calls i) ∧
    (∀ i, x.1.answer (.light i) = some false ↔ i ∈ x.1.indices) ∧
    (∀ i f, rig[i]? = some f → i ∈ x.1.indices →
      f.values (perform rig (.drop i) x).2.frame = f.values (Sink.frame sink)) ∧
    (putBack x).2.frame = Sink.frame sink ∧ (putBack x).1.indices = [] := by
  intro x
  have h : Undoable rig sink x := undoable_performAll apart reliable (undoable_empty rig sink) calls
  refine ⟨h.placed.nodup, mem_indices_performAll rig ⟨sink, 0⟩ calls, ?_, ?_, ?_, rfl⟩
  · intro i
    rw [← contains_iff]
    simp [answer]
  · intro i f hf _
    have hd := undoable_perform apart reliable h (.drop i)
    refine Fixture.values_agreeOff hd.steady.agree ?_
    -- the lights that are left are other fixtures
    intro c hc hr
    obtain ⟨lit, hm, ho⟩ := owns_of_reach hr
    have hne : lit.index ≠ i := by
      rintro rfl
      have hi := (mem_indices_perform h.placed (.drop lit.index) lit.index).1
        (List.mem_map_of_mem hm)
      simp at hi
    exact Fixture.apart_of_ne apart (hd.placed.fixture_eq lit hm) hf hne c ho hc
  · have hw := within_putBack x
    have quiet := (hw.reliable (h.within.reliable reliable).2).1
    have ha := agree_putBack h.steady quiet
    refine Frame.ext_level fun c hc => ?_
    by_cases h1 : 1 ≤ c
    · exact ha c h1 (by unfold universeSize; omega)
    · have hall := h.within.trans hw
      exact hall.level_eq (hall.reliable reliable).1 c h1

/-- A bar of five channels, more than are written at once. -/
def bar (address : Nat) (fits : address + 5 ≤ 513 := by decide)
    (pos : 1 ≤ address := by decide) : Fixture where
  name := "bar"
  address
  channels := ["dimmer", "red", "green", "blue", "strobe"]
  name_ne := by decide
  channels_pos := by decide
  address_pos := pos
  fits
  named := by decide
  distinct := by decide

/-- Lights both bars, leaves the first one and comes back to it, in between ticks. -/
def thereAndBack : List Call :=
  [.light 0, .tick, .light 1, .tick, .drop 0, .tick, .light 0, .resync, .tick]

theorem undone_after_calls_twoBars :
    let first := (Frame.dark.put 3 40).put 5 9
    let x := performAll [bar 1, bar 6] thereAndBack (empty, (⟨first, 0⟩ : Stage Frame))
    x.1.indices = [1, 0] ∧ x.2.frame.level 1 = 235 ∧ x.2.frame.level 7 = 255 ∧
      (putBack x).2.frame = first := by
  have apart : [bar 1, bar 6].Pairwise Fixture.Apart :=
    List.pairwise_pair.2 (Fixture.apart_of_stop_le (by decide))
  have undone := undone_after_calls apart
    (reliable_frame ((Frame.dark.put 3 40).put 5 9)) thereAndBack
  exact ⟨by decide +kernel, by decide +kernel, by decide +kernel, undone.2.2.2.2.1⟩

end Highlight

end LightingDesk
