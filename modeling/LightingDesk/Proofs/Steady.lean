import LightingDesk.Proofs.Quiet

/-!
# Steady highlights

A highlight is steady over a frame if the levels it would put back are the frame's, and what the
stage shows is the frame, but for the dimmers and default colors of the highlighted fixtures.  Where
no two fixtures share a channel, highlights stay steady as lights are added and dropped, in any
order.

    dropping a light gives the frame its channels back      (steady_dropLight)
    a light that is added saves the frame's levels          (steady_add)
-/

namespace LightingDesk

namespace Highlight

/-- A light that is removed leaves the others as they are. -/
theorem remove_cases (h : Highlight) (i : Nat) :
    h.remove i = (h, []) ∨ ∃ lit before after, h.lights = before ++ lit :: after ∧
      h.remove i =
        ({ h with lights := before ++ after }, [lit.fixture.setValues lit.saved]) := by
  unfold remove
  split
  · rename_i lit hlit
    obtain ⟨hp, before, after, hl, hb⟩ := List.find?_eq_some_iff_append.1 hlit
    refine .inr ⟨lit, before, after, hl, ?_⟩
    have hb' : ∀ x ∈ before, ¬ (x.index == i) = true := fun x hx => by simpa using hb x hx
    have he : h.lights.eraseP (·.index == i) = before ++ after := by
      rw [hl, List.eraseP_append_right _ hb']
      exact congrArg (before ++ ·) (List.eraseP_cons_of_pos hp)
    rw [he]
  · exact .inl rfl

end Highlight

variable {σ : Type} [Sink σ]

/-- A highlight that can be undone: it shows a frame except where it has to differ, and has the
frame's levels saved. -/
structure Steady (live : Frame) (h : Highlight × Stage σ) : Prop where
  saved_eq : ∀ lit ∈ h.1.lights, lit.saved = lit.fixture.values live
  agree : h.2.frame.AgreeOff (Piece.highlight h.1.lights).Reach live

theorem owns_of_reach {lights : List Lit} {c : Nat} (h : (Piece.highlight lights).Reach c) :
    ∃ lit ∈ lights, lit.fixture.Owns c := by
  obtain ⟨lit, hl, hc⟩ := h
  refine ⟨lit, hl, ?_⟩
  rcases hc with hc | hc
  · exact Fixture.owns_of_hasAt hc
  · exact Fixture.owns_of_defaultColorAt hc

namespace Desk

variable [LawfulSink σ] {live : Frame}

theorem steady_dropLight {h : Highlight × Stage σ} (hs : Steady live h) (i : Nat)
    (quiet : (dropLight i h).2.reported = h.2.reported) : Steady live (dropLight i h) := by
  rcases h.1.remove_cases i with hr | ⟨lit, before, after, hl, hr⟩
  · have he : dropLight i h = (h.1, h.2.play .desk []) := by simp only [dropLight, hr]
    rw [he] at quiet ⊢
    refine ⟨hs.saved_eq, ?_⟩
    rw [show (h.2.play .desk []).frame = h.2.frame from Stage.frame_play quiet]
    exact hs.agree
  · have he : dropLight i h = ({ h.1 with lights := before ++ after },
        h.2.play .desk [lit.fixture.setValues lit.saved]) := by simp only [dropLight, hr]
    rw [he] at quiet ⊢
    have hmem : ∀ lit', lit' ∈ h.1.lights ↔ lit' = lit ∨ lit' ∈ before ++ after := by
      intro lit'
      rw [hl, List.mem_append, List.mem_cons, List.mem_append]
      tauto
    refine ⟨fun lit' hm => hs.saved_eq lit' ((hmem lit').2 (.inr hm)), ?_⟩
    intro c h1 h2 hc
    have hplay := Stage.frame_play (s := h.2) quiet
    by_cases ho : lit.fixture.Owns c
    · -- the light's own channels show what was saved
      rw [hplay, hs.saved_eq lit ((hmem lit).2 (.inl rfl)), Frame.after_cons]
      exact Fixture.level_setValues lit.fixture h.2.frame live ho
    · have hn : ¬ (Piece.highlight h.1.lights).Reach c := by
        rintro ⟨lit', hm, hc'⟩
        rcases (hmem lit').1 hm with rfl | hm
        · rcases hc' with hc' | hc'
          · exact ho (Fixture.owns_of_hasAt hc')
          · exact ho (Fixture.owns_of_defaultColorAt hc')
        · exact hc ⟨lit', hm, hc'⟩
      rw [hplay, ← hs.agree c h1 h2 hn]
      refine level_after h.2.frame ?_
      intro job hj ht
      rw [List.mem_singleton.1 hj] at ht
      exact ho ((Fixture.staysIn_setValues lit.fixture lit.saved).touches c ht)

theorem steady_drop {h : Highlight × Stage σ} (hs : Steady live h) (places : List Nat)
    (quiet : (places.foldl (fun h i => dropLight i h) h).2.reported = h.2.reported) :
    Steady live (places.foldl (fun h i => dropLight i h) h) := by
  induction places generalizing h with
  | nil => exact hs
  | cons i rest ih =>
    obtain ⟨hi, hrest⟩ := (within_dropLight i h).quiet_parts (within_drop rest _) quiet
    exact ih (steady_dropLight hs i hi) hrest

theorem steady_leave {h : Highlight × Stage σ} (hs : Steady live h) (c : Controls)
    (quiet : (leave c h).2.reported = h.2.reported) : Steady live (leave c h) := by
  unfold leave at quiet ⊢
  split
  · exact hs
  · rename_i hn
    rw [if_neg hn] at quiet
    exact steady_dropLight hs c.cursor quiet

omit [LawfulSink σ] in
theorem steady_askResync {h : Highlight × Stage σ} (hs : Steady live h) :
    Steady live (h.1.askResync, h.2) := ⟨hs.saved_eq, hs.agree⟩

omit [LawfulSink σ] in
/-- The channels of a fixture that is not highlighted yet show the frame, so its levels can be
saved. -/
theorem steady_add {rig : List Fixture} (apart : rig.Pairwise Fixture.Apart)
    {h : Highlight × Stage σ} (hs : Steady live h) (hp : Placed rig h.1.lights) {i : Nat}
    {f : Fixture} (hf : rig[i]? = some f) : Steady live (h.1.add i f h.2.frame, h.2) := by
  have hl := Highlight.lights_add h.1 i f h.2.frame
  by_cases hi : i ∈ h.1.indices
  · rw [if_pos hi] at hl
    constructor
    · rw [hl]
      exact hs.saved_eq
    · rw [hl]
      exact hs.agree
  · rw [if_neg hi] at hl
    have hv : f.values h.2.frame = f.values live := by
      refine Fixture.values_agreeOff hs.agree ?_
      intro c hc hr
      obtain ⟨lit, hm, ho⟩ := owns_of_reach hr
      have hne : lit.index ≠ i := fun e => hi (List.mem_map.2 ⟨lit, hm, e⟩)
      exact Fixture.apart_of_ne apart (hp.fixture_eq lit hm) hf hne c ho hc
    constructor
    · rw [hl]
      intro lit hm
      rcases List.mem_append.1 hm with hm | hm
      · exact hs.saved_eq lit hm
      · rw [List.mem_singleton.1 hm]
        exact hv
    · rw [hl]
      refine hs.agree.mono ?_
      rintro c ⟨lit, hm, hc⟩
      exact ⟨lit, List.mem_append_left _ hm, hc⟩

end Desk

end LightingDesk
