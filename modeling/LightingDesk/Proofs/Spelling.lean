import LightingDesk.Proofs.Acceptance
import LightingDesk.Setup.Config

/-!
# Plots, spelled out

The fixtures of a plot can be described once more, with every channel listed and in the order of
their addresses.  What a configuration is thereby turned into is a normal form: it stands for the
very same plot, in whatever order it is written down, and a configuration that has this form already
is not changed.

    fixtures of a plot are arranged to that plot again      (arrange_of_perm)
    spelled out, they stand for the plot they come from     (plot_of_perm)
    descriptions that list everything stay as they are      (map_ofFixture_eq_iff)
    a configuration and its normal form                     (rig_spelledOut)
-/

namespace LightingDesk

theorem Plot.arrange_of_perm {fixtures plot shuffled : List Fixture}
    (h : arrange fixtures = .ok plot) (perm : shuffled.Perm plot) :
    arrange shuffled = .ok plot := by
  obtain ⟨hp, apart, ascends⟩ := arrange_eq_ok_iff.1 h
  have apart' : shuffled.Pairwise Fixture.Apart :=
    ((perm.trans hp).pairwise_iff Fixture.Apart.symm).2 apart
  exact arrange_eq_ok_iff.2 ⟨perm.symm, apart', ascends⟩

namespace FixtureSpec

variable {s : FixtureSpec} {specs : List FixtureSpec} {f : Fixture} {fixtures rig : List Fixture}

/-! ## Fixtures described again -/

theorem describes_ofFixture (f : Fixture) : (ofFixture f).Describes f :=
  resolve_eq_ok_iff.1 (resolve_ofFixture f)

/-- Fixtures have the names of their descriptions. -/
theorem Describe.names_eq (h : Describe specs fixtures) :
    fixtures.map (·.name) = specs.map (·.name) := by
  obtain ⟨each, -⟩ := h
  induction each with
  | nil => rfl
  | cons describes _ ih => rw [List.map_cons, List.map_cons, ih, describes.name_eq]

theorem describe_ofFixture (names : (fixtures.map (·.name)).Nodup) :
    Describe (fixtures.map ofFixture) fixtures := by
  constructor
  · exact List.forall₂_map_left_iff.2 (List.forall₂_same.2 fun f _ => describes_ofFixture f)
  · rw [List.map_map]
    exact names

/-- The fixtures of a plot stand for it when they are described again, in any order. -/
theorem plot_of_perm (h : plot specs = .ok rig) {shuffled : List Fixture}
    (perm : shuffled.Perm rig) : plot (shuffled.map ofFixture) = .ok rig := by
  obtain ⟨fixtures, describe, arranged⟩ := plot_eq_ok_iff.1 h
  have names : (shuffled.map (·.name)).Nodup := by
    have hp := (perm.trans (Plot.arrange_perm arranged)).map (·.name)
    rw [hp.nodup_iff, describe.names_eq]
    exact describe.names
  exact plot_eq_ok_iff.2 ⟨shuffled, describe_ofFixture names, Plot.arrange_of_perm arranged perm⟩

/-! ## Descriptions that list everything -/

/-- Whether every description lists its channels and names no layout, and they come in the order of
their addresses. -/
structure SpelledOut (specs : List FixtureSpec) : Prop where
  listed : ∀ s ∈ specs, s.channels.isSome ∧ s.layout = none
  ascending : specs.Pairwise fun s t => s.address < t.address

theorem ofFixture_eq_iff (h : s.Describes f) :
    ofFixture f = s ↔ s.channels.isSome ∧ s.layout = none := by
  obtain ⟨name, address, channels, layout⟩ := s
  obtain ⟨hn, ha, lists, -⟩ := h
  unfold ofFixture
  rw [hn, ha, FixtureSpec.mk.injEq]
  constructor
  · rintro ⟨-, -, hc, hl⟩
    exact ⟨by rw [← hc]; rfl, hl.symm⟩
  · rintro ⟨hc, hl⟩
    cases lists with
    | own listed => exact ⟨rfl, rfl, listed.symm, hl.symm⟩
    | known unlisted _ _ =>
      rw [unlisted] at hc
      cases hc

theorem map_ofFixture_eq_iff_listed (h : List.Forall₂ Describes specs fixtures) :
    fixtures.map ofFixture = specs ↔ ∀ s ∈ specs, s.channels.isSome ∧ s.layout = none := by
  induction h with
  | nil => simp
  | cons describes _ ih =>
    rw [List.map_cons, List.cons.injEq, ofFixture_eq_iff describes, ih, List.forall_mem_cons]

theorem spelledOut_of_plot (h : plot specs = .ok rig) : SpelledOut (rig.map ofFixture) := by
  obtain ⟨fixtures, -, arranged⟩ := plot_eq_ok_iff.1 h
  obtain ⟨-, -, ascends⟩ := Plot.arrange_eq_ok_iff.1 arranged
  constructor
  · intro s hs
    obtain ⟨f, -, rfl⟩ := List.mem_map.1 hs
    exact ⟨rfl, rfl⟩
  · exact List.pairwise_map.2 ascends

/-- What is already spelled out stays as it is. -/
theorem map_ofFixture_eq_iff (h : plot specs = .ok rig) :
    rig.map ofFixture = specs ↔ SpelledOut specs := by
  constructor
  · intro e
    exact e ▸ spelledOut_of_plot h
  · rintro ⟨listed, ascending⟩
    obtain ⟨fixtures, describe, arranged⟩ := plot_eq_ok_iff.1 h
    obtain ⟨perm, -, ascends⟩ := Plot.arrange_eq_ok_iff.1 arranged
    have again : fixtures.map ofFixture = specs :=
      (map_ofFixture_eq_iff_listed describe.each).2 listed
    -- the fixtures are in order before they are arranged
    have before : fixtures.Pairwise fun f g => f.address < g.address := by
      rw [← again, List.pairwise_map] at ascending
      exact ascending
    have same : rig = fixtures :=
      perm.eq_of_pairwise (fun f g _ _ h1 h2 => by omega) ascends before
    rw [same, again]

end FixtureSpec

/-! ## Configurations -/

namespace Config

/-- The configuration that describes the given fixtures, channel by channel, and is the same in all
else. -/
def spelledOut (c : Config) (rig : List Fixture) : Config :=
  { c with fixtures := rig.map FixtureSpec.ofFixture }

/-- Of a configuration of which the fixtures are accepted, these very fixtures are accepted once
more when each is described by its channels alone: the list is the same, and so all that a fixture
has is, its default color too.  Neither the layouts nor the order of the first configuration matter,
nor does the order in which the fixtures are described again; and nothing changes exactly where
everything had been listed in the order of the addresses before. -/
theorem rig_spelledOut {c : Config} {rig : List Fixture} (h : c.rig = .ok rig) :
    (c.spelledOut rig).rig = .ok rig ∧
      (∀ shuffled : List Fixture, shuffled.Perm rig → (c.spelledOut shuffled).rig = .ok rig) ∧
      (c.spelledOut rig = c ↔ FixtureSpec.SpelledOut c.fixtures) := by
  have any : ∀ shuffled : List Fixture, shuffled.Perm rig →
      (c.spelledOut shuffled).rig = .ok rig :=
    fun _ perm => FixtureSpec.plot_of_perm h perm
  have unchanged : c.spelledOut rig = c ↔ rig.map FixtureSpec.ofFixture = c.fixtures := by
    constructor
    · intro e
      exact congrArg Config.fixtures e
    · intro e
      unfold spelledOut
      rw [e]
  exact ⟨any rig (.refl _), any, unchanged.trans (FixtureSpec.map_ofFixture_eq_iff h)⟩

/-- Three fixtures, the last one first.  One of them names its layout, and another one names a
layout that its own list of channels goes before. -/
def mixedStage : Config :=
  ⟨none, none, none, none, none, none, none, none, .dummy,
    [⟨"fog", 41, some ["output"], none⟩, ⟨"wash", 30, none, some "Zoom"⟩,
      ⟨"lamp", 1, some ["white", "dimmer"], some "exa"⟩]⟩

theorem rig_spelledOut_mixedStage : ∃ rig, mixedStage.rig = .ok rig ∧
    (mixedStage.spelledOut rig).rig = .ok rig ∧ (mixedStage.spelledOut rig.reverse).rig = .ok rig ∧
      mixedStage.spelledOut rig ≠ mixedStage := by
  obtain ⟨fixtures, resolved, descending⟩ : ∃ fixtures : List Fixture,
      FixtureSpec.resolveAll [] mixedStage.fixtures = .ok fixtures ∧
        fixtures.Pairwise fun f g => g.stop ≤ f.address := ⟨_, rfl, by decide⟩
  obtain ⟨rig, arranged⟩ :=
    Plot.exists_arrange (descending.imp fun h => (Fixture.apart_of_stop_le h).symm)
  have accepted : mixedStage.rig = .ok rig :=
    FixtureSpec.plot_eq_ok_iff.2
      ⟨fixtures, (FixtureSpec.resolveAll_eq_ok_iff.1 resolved).1, arranged⟩
  obtain ⟨again, any, unchanged⟩ := rig_spelledOut accepted
  have templated : ¬ FixtureSpec.SpelledOut mixedStage.fixtures := by
    intro h
    have listed := (h.listed ⟨"wash", 30, none, some "Zoom"⟩ (by decide)).1
    cases listed
  exact ⟨rig, accepted, again, any rig.reverse rig.reverse_perm,
    fun e => templated (unchanged.1 e)⟩

end Config

end LightingDesk
