import LightingDesk.Rig.Fixture

/-!
# Plots

A plot lists fixtures by address, no two of which share a channel.  Fixtures with one address
keep the order they came in, and the first that reaches into the channels of the one before it is
reported.

    neighbours share no channel iff no two fixtures do          (firstOverlap_eq_none_iff)
    a plot is made of all the fixtures that were given          (arrange_perm)
-/

namespace LightingDesk.Plot

/-- The first fixture that begins within the channels of the one before it. -/
def firstOverlap : List Fixture → Option FixtureError
  | f :: g :: rest =>
    if g.address < f.stop then some (.overlap g.name g.address f.name)
    else firstOverlap (g :: rest)
  | _ => none

/-- Puts fixtures in the order of their addresses, unless some share a channel. -/
def arrange (fixtures : List Fixture) : Except FixtureError (List Fixture) :=
  let sorted := fixtures.mergeSort fun f g => f.address ≤ g.address
  match firstOverlap sorted with
  | some overlap => .error overlap
  | none => .ok sorted

/-- A fixture occupies at least one channel. -/
theorem address_lt_stop (f : Fixture) : f.address < f.stop := by
  have h := f.channels_pos
  unfold Fixture.stop Fixture.count
  omega

theorem firstOverlap_eq_none_iff (fixtures : List Fixture) :
    firstOverlap fixtures = none ↔ fixtures.Pairwise fun f g => f.stop ≤ g.address := by
  induction fixtures with
  | nil => simp [firstOverlap]
  | cons f rest ih =>
    cases rest with
    | nil => simp [firstOverlap]
    | cons g rest =>
      unfold firstOverlap
      split
      · rename_i h
        simp only [reduceCtorEq, List.pairwise_cons, false_iff, not_and]
        intro hf
        exact absurd (hf g (by simp)) (by omega)
      · rename_i h
        rw [ih]
        constructor
        · intro hp
          refine List.pairwise_cons.2 ⟨fun k hk => ?_, hp⟩
          rcases List.mem_cons.1 hk with rfl | hk
          · omega
          · have h1 := (List.pairwise_cons.1 hp).1 k hk
            have h2 := address_lt_stop g
            omega
        · exact fun hp => (List.pairwise_cons.1 hp).2

theorem arrange_perm {fixtures plot : List Fixture} (h : arrange fixtures = .ok plot) :
    plot.Perm fixtures := by
  unfold arrange at h
  simp only at h
  split at h
  · simp at h
  · injection h with h
    exact h ▸ List.mergeSort_perm _ _

end LightingDesk.Plot
