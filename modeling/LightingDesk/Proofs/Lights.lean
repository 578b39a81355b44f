import LightingDesk.Proofs.Run
import Mathlib.Data.List.Nodup

/-!
# Lights

The lights of a highlight stand at places of the rig, each at a place of its own.  While lights are
being picked these places are the cursor's and the selected ones.

    lights that are dropped leave their places, and no others      (indices_drop)
    a highlight that follows the cursor, or is cleared, still aims at what is picked
                                                                   (aims_point, aims_only)
-/

namespace LightingDesk

/-- Lights that stand at their places in the rig, each at its own. -/
structure Placed (rig : List Fixture) (lights : List Lit) : Prop where
  fixture_eq : ∀ lit ∈ lights, rig[lit.index]? = some lit.fixture
  nodup : (lights.map (·.index)).Nodup

namespace Controls

/-- Lights that stand at the cursor and at the selected places. -/
structure Aims (c : Controls) (rig : List Fixture) (lights : List Lit) : Prop where
  placed : Placed rig lights
  mem_iff : ∀ i, i ∈ lights.map (·.index) ↔ i = c.cursor ∨ c.isSelected i = true

theorem isSelected_of_unselected {c : Controls} (h : ∀ flag ∈ c.selected, flag = false) (i : Nat) :
    c.isSelected i = false := by
  unfold isSelected
  rw [List.getD_eq_getElem?_getD]
  cases hi : c.selected[i]? with
  | none => rfl
  | some flag => exact h flag (List.mem_of_getElem? hi)

theorem isSelected_deselect (c : Controls) (i : Nat) : c.deselect.isSelected i = false :=
  isSelected_of_unselected (by simp [deselect]) i

theorem isSelected_toggle (c : Controls) {i : Nat} (h : i ≠ c.cursor) :
    ({ c with selected := c.selected.modify c.cursor not } : Controls).isSelected i =
      c.isSelected i := by
  have hne : ¬ c.cursor = i := fun e => h e.symm
  simp [isSelected, List.getD_eq_getElem?_getD, hne]

end Controls

/-! ## Lights of a highlight -/

theorem placed_sublist {rig : List Fixture} {lights lights' : List Lit} (h : Placed rig lights)
    (hs : lights'.Sublist lights) : Placed rig lights' :=
  ⟨fun lit hm => h.fixture_eq lit (hs.subset hm), h.nodup.sublist (hs.map _)⟩

namespace Highlight

theorem indices_remove (h : Highlight) (i : Nat) :
    (h.remove i).1.indices = h.indices.erase i := by
  have hp : ∀ l : List Lit,
      (l.eraseP (·.index == i)).map (·.index) = (l.map (·.index)).erase i := by
    intro l
    rw [List.erase_eq_eraseP', List.eraseP_map]
    rfl
  unfold remove indices
  split
  · exact hp h.lights
  · rename_i hn
    rw [← hp, List.eraseP_of_forall_not fun lit hl => by simpa using List.find?_eq_none.1 hn lit hl]

theorem lights_remove_sublist (h : Highlight) (i : Nat) :
    (h.remove i).1.lights.Sublist h.lights := by
  unfold remove
  split
  · exact List.eraseP_sublist
  · exact .refl _

theorem contains_iff (h : Highlight) (i : Nat) : h.contains i = true ↔ i ∈ h.indices := by
  simp only [contains, indices, List.any_eq_true, List.mem_map, beq_iff_eq]

theorem lights_add (h : Highlight) (i : Nat) (f : Fixture) (frame : Frame) :
    (h.add i f frame).lights =
      if i ∈ h.indices then h.lights else h.lights ++ [⟨i, f, f.values frame⟩] := by
  unfold add
  by_cases hi : i ∈ h.indices
  · rw [if_pos ((contains_iff h i).2 hi), if_pos hi]
  · rw [if_neg (fun hc => hi ((contains_iff h i).1 hc)), if_neg hi]

theorem placed_add {rig : List Fixture} {h : Highlight} (hp : Placed rig h.lights) {i : Nat}
    {f : Fixture} (hf : rig[i]? = some f) (frame : Frame) :
    Placed rig (h.add i f frame).lights := by
  rw [lights_add]
  split
  · exact hp
  · rename_i hi
    constructor
    · intro lit hm
      rcases List.mem_append.1 hm with hm | hm
      · exact hp.fixture_eq lit hm
      · rw [List.mem_singleton.1 hm]
        exact hf
    · rw [List.map_append, List.nodup_append]
      refine ⟨hp.nodup, by simp, ?_⟩
      rintro j hj k hk rfl
      rw [List.map_singleton, List.mem_singleton] at hk
      rw [← show j = i from hk] at hi
      exact hi hj

theorem mem_indices_add (h : Highlight) (i : Nat) (f : Fixture) (frame : Frame) (j : Nat) :
    j ∈ (h.add i f frame).indices ↔ j = i ∨ j ∈ h.indices := by
  unfold indices
  rw [lights_add]
  split
  · rename_i hi
    refine ⟨.inr, ?_⟩
    rintro (rfl | hj)
    · exact hi
    · exact hj
  · rw [List.map_append, List.mem_append, List.map_singleton, List.mem_singleton, or_comm]

end Highlight

/-! ## Aiming -/

namespace Controls

variable {rig : List Fixture} {c : Controls}

theorem aims_toggle {lights : List Lit} (ha : c.Aims rig lights) :
    ({ c with selected := c.selected.modify c.cursor not } : Controls).Aims rig lights := by
  refine ⟨ha.placed, fun i => (ha.mem_iff i).trans ?_⟩
  by_cases hi : i = c.cursor
  · simp [hi]
  · rw [isSelected_toggle c hi]

/-- A light at the cursor alone. -/
theorem aims_one (hs : ∀ i, c.isSelected i = false) {f : Fixture} (hf : rig[c.cursor]? = some f)
    (values : List UInt8) : c.Aims rig [⟨c.cursor, f, values⟩] := by
  refine ⟨⟨?_, by simp⟩, ?_⟩
  · intro lit hm
    rw [List.mem_singleton.1 hm]
    exact hf
  · intro i
    simp [hs]

end Controls

namespace Desk

variable {σ : Type} [Sink σ]

theorem indices_drop (places : List Nat) (h : Highlight × Stage σ) :
    (places.foldl (fun h i => dropLight i h) h).1.indices = h.1.indices.diff places := by
  induction places generalizing h with
  | nil => rfl
  | cons i rest ih =>
    rw [List.foldl_cons, ih, List.diff_cons]
    exact congrArg (List.diff · rest) (h.1.indices_remove i)

theorem lights_drop_sublist (places : List Nat) (h : Highlight × Stage σ) :
    (places.foldl (fun h i => dropLight i h) h).1.lights.Sublist h.1.lights := by
  induction places generalizing h with
  | nil => exact .refl _
  | cons i rest ih => exact (ih _).trans (h.1.lights_remove_sublist i)

/-- Leaves the cursor's light behind, unless it is selected. -/
def leave (c : Controls) (h : Highlight × Stage σ) : Highlight × Stage σ :=
  if c.isSelected c.cursor then h else dropLight c.cursor h

theorem lights_leave_sublist (c : Controls) (h : Highlight × Stage σ) :
    (leave c h).1.lights.Sublist h.1.lights := by
  unfold leave
  split
  · exact .refl _
  · exact h.1.lights_remove_sublist c.cursor

theorem mem_indices_leave {rig : List Fixture} {c : Controls} {h : Highlight × Stage σ}
    (ha : c.Aims rig h.1.lights) (j : Nat) :
    j ∈ (leave c h).1.indices ↔ c.isSelected j = true := by
  have hmem : j ∈ h.1.indices ↔ j = c.cursor ∨ c.isSelected j = true := ha.mem_iff j
  have hnd : h.1.indices.Nodup := ha.placed.nodup
  unfold leave
  split
  · rename_i hs
    refine hmem.trans ⟨?_, .inr⟩
    rintro (rfl | hj)
    · exact hs
    · exact hj
  · rename_i hs
    have hd : (dropLight c.cursor h).1.indices = h.1.indices.erase c.cursor :=
      h.1.indices_remove c.cursor
    rw [hd, hnd.mem_erase_iff, hmem]
    constructor
    · rintro ⟨hne, he | hj⟩
      · exact absurd he hne
      · exact hj
    · intro hj
      refine ⟨?_, .inr hj⟩
      rintro rfl
      exact hs hj

/-- The light that the cursor leaves goes dark unless it is selected, and the one at its new place
comes on. -/
theorem aims_point {rig : List Fixture} {c : Controls} {h : Highlight × Stage σ}
    (ha : c.Aims rig h.1.lights) {i : Nat} {f : Fixture} (hf : rig[i]? = some f) (frame : Frame) :
    ({ c with cursor := i } : Controls).Aims rig
      ((leave c h).1.askResync.add i f frame).lights := by
  have hp : Placed rig (leave c h).1.askResync.lights :=
    placed_sublist ha.placed (lights_leave_sublist c h)
  refine ⟨Highlight.placed_add hp hf frame, ?_⟩
  intro j
  refine (Highlight.mem_indices_add (leave c h).1.askResync i f frame j).trans ?_
  exact or_congr Iff.rfl (mem_indices_leave ha j)

/-- With all lights dropped but the cursor's, the highlight aims at the cursor alone. -/
theorem aims_only {rig : List Fixture} {c : Controls} {h : Highlight × Stage σ}
    (ha : c.Aims rig h.1.lights) :
    c.deselect.Aims rig
      ((h.1.indices.filter (· ≠ c.cursor)).foldl (fun h i => dropLight i h) h).1.lights := by
  refine ⟨placed_sublist ha.placed (lights_drop_sublist _ h), ?_⟩
  intro i
  have hd := indices_drop (h.1.indices.filter (· ≠ c.cursor)) h
  have hnd : h.1.indices.Nodup := ha.placed.nodup
  have hmem : i ∈ h.1.indices ↔ i = c.cursor ∨ c.isSelected i = true := ha.mem_iff i
  unfold Highlight.indices at hd hnd hmem
  rw [Highlight.indices, hd, hnd.mem_sdiff_iff, List.mem_filter, decide_eq_true_iff]
  constructor
  · rintro ⟨hi, hn⟩
    exact .inl (Classical.byContradiction fun hne => hn ⟨hi, hne⟩)
  · rintro (rfl | hi)
    · exact ⟨hmem.2 (.inl rfl), fun hn => hn.2 rfl⟩
    · rw [Controls.isSelected_deselect] at hi
      cases hi

end Desk

end LightingDesk
