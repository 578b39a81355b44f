import LightingDesk.Proofs.Channels
import LightingDesk.Setup.FixtureSpec
import Mathlib.Data.List.Forall2

/-!
# Which descriptions stand for a plot

Descriptions stand for a plot exactly when each of them describes a fixture, no name is used twice,
and no two of the fixtures share a channel.  A plot compares neighbours only, and tells an overlap
only where nothing is wrong with any description by itself; before that the first description that
is wrong decides.

    fixtures can be arranged iff no two of them share a channel   (arrange_eq_ok_iff)
    the first neighbours that share a channel are told            (arrange_eq_error_iff)
    a description resolves to the fixture that it describes       (resolve_eq_ok_iff)
    what becomes of descriptions, in all cases                    (plot_decides)
-/

namespace LightingDesk

/-! ## Arranging -/

namespace Fixture

variable {f g : Fixture}

theorem Apart.symm (h : f.Apart g) : g.Apart f := fun c hg hf => h c hf hg

/-- Of two fixtures without a common channel the one with the lower address ends first. -/
theorem apart_iff_stop_le (h : f.address ≤ g.address) : f.Apart g ↔ f.stop ≤ g.address := by
  constructor
  · intro ha
    by_contra hlt
    exact ha g.address ⟨h, by omega⟩ ⟨Nat.le_refl _, Plot.address_lt_stop g⟩
  · exact apart_of_stop_le

end Fixture

namespace Plot

/-- Fixtures in the order of their addresses; those with one address stay as they came. -/
def byAddress (fixtures : List Fixture) : List Fixture :=
  fixtures.mergeSort fun f g => f.address ≤ g.address

/-- The first fixture of a list that shares a channel with one before it shares it with its
neighbour, and both are named. -/
def FirstClash (sorted : List Fixture) (e : FixtureError) : Prop :=
  ∃ before f g after, sorted = before ++ f :: g :: after ∧
    (before ++ [f]).Pairwise Fixture.Apart ∧ ¬ f.Apart g ∧ e = .overlap g.name g.address f.name

theorem byAddress_perm (fixtures : List Fixture) : (byAddress fixtures).Perm fixtures :=
  List.mergeSort_perm _ _

theorem byAddress_sorted (fixtures : List Fixture) :
    (byAddress fixtures).Pairwise fun f g => f.address ≤ g.address := by
  let le (f g : Fixture) : Bool := decide (f.address ≤ g.address)
  have trans : ∀ f g h, le f g = true → le g h = true → le f h = true := by
    intro f g h hfg hgh
    simp only [le, decide_eq_true_eq] at hfg hgh ⊢
    exact Nat.le_trans hfg hgh
  have total : ∀ f g, (le f g || le g f) = true := by
    intro f g
    simp only [le, Bool.or_eq_true, decide_eq_true_eq]
    exact Nat.le_total f.address g.address
  exact (List.pairwise_mergeSort trans total fixtures).imp of_decide_eq_true

/-- In the order of the addresses it is enough to look at neighbours. -/
theorem firstOverlap_eq_none_iff_apart {sorted : List Fixture}
    (h : sorted.Pairwise fun f g => f.address ≤ g.address) :
    firstOverlap sorted = none ↔ sorted.Pairwise Fixture.Apart := by
  rw [firstOverlap_eq_none_iff]
  constructor
  · exact fun hp => hp.imp Fixture.apart_of_stop_le
  · exact fun hp => hp.imp₂ (fun f g ha hle => (Fixture.apart_iff_stop_le hle).1 ha) h

theorem firstClash_of_clash {f g : Fixture} {rest : List Fixture} {e : FixtureError}
    (clash : ¬ f.Apart g) :
    FirstClash (f :: g :: rest) e ↔ e = .overlap g.name g.address f.name := by
  constructor
  · rintro ⟨before, f', g', after, hs, apart, -, rfl⟩
    cases before with
    | nil =>
      cases hs
      rfl
    | cons x before =>
      -- the two at the front would be among those that are apart
      injection hs with hx hs
      subst hx
      have hg : g ∈ before ++ [f'] := by
        cases before with
        | nil =>
          injection hs with hg
          simp [hg]
        | cons y before =>
          injection hs with hg
          simp [hg]
      exact absurd ((List.pairwise_cons.1 apart).1 g hg) clash
  · rintro rfl
    exact ⟨[], f, g, rest, rfl, List.pairwise_singleton _ _, clash, rfl⟩

theorem firstClash_of_apart {f g : Fixture} {rest : List Fixture} {e : FixtureError}
    (apart : ∀ k ∈ g :: rest, f.Apart k) :
    FirstClash (f :: g :: rest) e ↔ FirstClash (g :: rest) e := by
  constructor
  · rintro ⟨before, f', g', after, hs, h, clash, he⟩
    cases before with
    | nil =>
      cases hs
      exact absurd (apart g (.head _)) clash
    | cons x before =>
      injection hs with hx hs
      exact ⟨before, f', g', after, hs, (List.pairwise_cons.1 h).2, clash, he⟩
  · rintro ⟨before, f', g', after, hs, h, clash, he⟩
    refine ⟨f :: before, f', g', after, by rw [hs]; rfl, ?_, clash, he⟩
    refine List.pairwise_cons.2 ⟨fun k hk => apart k ?_, h⟩
    rw [hs]
    rcases List.mem_append.1 hk with hk | hk
    · exact List.mem_append_left _ hk
    · rw [List.mem_singleton.1 hk]
      exact List.mem_append_right _ (.head _)

theorem firstOverlap_eq_some_iff {sorted : List Fixture} {e : FixtureError}
    (h : sorted.Pairwise fun f g => f.address ≤ g.address) :
    firstOverlap sorted = some e ↔ FirstClash sorted e := by
  induction sorted with
  | nil => simp [firstOverlap, FirstClash]
  | cons f rest ih =>
    cases rest with
    | nil => simp [firstOverlap, FirstClash, List.cons_eq_append_iff]
    | cons g rest =>
      obtain ⟨hf, hrest⟩ := List.pairwise_cons.1 h
      have hfg := hf g (.head _)
      unfold firstOverlap
      split
      · rename_i hlt
        rw [firstClash_of_clash fun ha => ?_]
        · simp only [Option.some.injEq, eq_comm]
        · have := (Fixture.apart_iff_stop_le hfg).1 ha
          omega
      · rename_i hle
        rw [ih hrest, firstClash_of_apart]
        intro k hk
        refine Fixture.apart_of_stop_le ?_
        rcases List.mem_cons.1 hk with rfl | hk
        · omega
        · have := (List.pairwise_cons.1 hrest).1 k hk
          omega

/-- Fixtures without a common channel that are in order have ascending addresses. -/
theorem ascending {sorted : List Fixture} (h : sorted.Pairwise fun f g => f.address ≤ g.address)
    (apart : sorted.Pairwise Fixture.Apart) : sorted.Pairwise fun f g => f.address < g.address := by
  refine apart.imp₂ (fun f g ha hle => ?_) h
  have h1 := (Fixture.apart_iff_stop_le hle).1 ha
  have h2 := address_lt_stop f
  omega

theorem arrange_of_none {fixtures : List Fixture}
    (h : firstOverlap (byAddress fixtures) = none) :
    arrange fixtures = .ok (byAddress fixtures) := by
  unfold byAddress at h ⊢
  simp only [arrange, h]

theorem arrange_of_some {fixtures : List Fixture} {e : FixtureError}
    (h : firstOverlap (byAddress fixtures) = some e) : arrange fixtures = .error e := by
  unfold byAddress at h
  simp only [arrange, h]

theorem arrange_eq_ok_iff {fixtures plot : List Fixture} : arrange fixtures = .ok plot ↔
    plot.Perm fixtures ∧ fixtures.Pairwise Fixture.Apart ∧
      plot.Pairwise fun f g => f.address < g.address := by
  have hp := byAddress_perm fixtures
  have hs := byAddress_sorted fixtures
  have hApart : (byAddress fixtures).Pairwise Fixture.Apart ↔ fixtures.Pairwise Fixture.Apart :=
    hp.pairwise_iff Fixture.Apart.symm
  rw [← hApart]
  constructor
  · intro h
    cases hn : firstOverlap (byAddress fixtures) with
    | some e =>
      rw [arrange_of_some hn] at h
      cases h
    | none =>
      rw [arrange_of_none hn] at h
      cases h
      have apart := (firstOverlap_eq_none_iff_apart hs).1 hn
      exact ⟨hp, apart, ascending hs apart⟩
  · rintro ⟨perm, apart, hlt⟩
    rw [arrange_of_none ((firstOverlap_eq_none_iff_apart hs).2 apart)]
    have : byAddress fixtures = plot :=
      List.Perm.eq_of_pairwise (fun f g _ _ h1 h2 => by omega) (ascending hs apart) hlt
        (hp.trans perm.symm)
    rw [this]

/-- Fixtures without a common channel can be arranged. -/
theorem exists_arrange {fixtures : List Fixture} (apart : fixtures.Pairwise Fixture.Apart) :
    ∃ plot, arrange fixtures = .ok plot := by
  have hp := byAddress_perm fixtures
  have hs := byAddress_sorted fixtures
  have sorted := (hp.pairwise_iff (R := Fixture.Apart) Fixture.Apart.symm).2 apart
  exact ⟨byAddress fixtures, arrange_eq_ok_iff.2 ⟨hp, apart, ascending hs sorted⟩⟩

theorem arrange_eq_error_iff {fixtures : List Fixture} {e : FixtureError} :
    arrange fixtures = .error e ↔ FirstClash (byAddress fixtures) e := by
  rw [← firstOverlap_eq_some_iff (byAddress_sorted fixtures)]
  cases hn : firstOverlap (byAddress fixtures) with
  | none => simp [arrange_of_none hn]
  | some overlap => simp [arrange_of_some hn]

end Plot

/-! ## One description -/

/-- No description of a single fixture is refused for an overlap. -/
theorem Fixture.build_ne_overlap (name : String) (address : Nat) (channels : List String)
    (n : String) (a : Nat) (o : String) :
    build name address channels ≠ .error (.overlap n a o) := by
  intro h
  unfold build at h
  repeat' split at h
  all_goals cases h

namespace FixtureSpec

/-- The channels that a description gives: its own list goes before the layout that it names, which
must be a known one. -/
inductive Lists (s : FixtureSpec) : List String → Prop
  | own {channels : List String} (listed : s.channels = some channels) : Lists s channels
  | known {layout : String} {channels : List String} (unlisted : s.channels = none)
      (named : s.layout = some layout) (found : layout? layout = some channels) : Lists s channels

/-- Whether a description is one of a fixture, and of this one. -/
structure Describes (s : FixtureSpec) (f : Fixture) : Prop where
  name_eq : f.name = s.name
  address_eq : f.address = s.address
  lists : s.Lists f.channels
  valid : Fixture.Valid s.name s.address f.channels

variable {s : FixtureSpec}

theorem channelNames_eq_ok_iff {channels : List String} :
    s.channelNames = .ok channels ↔ s.Lists channels := by
  unfold channelNames
  constructor
  · intro h
    split at h
    · rename_i hc
      cases h
      exact .own hc
    · rename_i hc hl
      split at h
      · rename_i hk
        cases h
        exact .known hc hl hk
      · cases h
    · cases h
  · rintro (hc | ⟨hc, hl, hk⟩)
    · rw [hc]
    · simp only [hc, hl, hk]

/-- A description resolves exactly to the fixture that it describes. -/
theorem resolve_eq_ok_iff {f : Fixture} : s.resolve = .ok f ↔ s.Describes f := by
  unfold resolve
  constructor
  · intro h
    split at h
    · cases h
    · rename_i channels hc
      cases hb : Fixture.build s.name s.address channels with
      | error e =>
        rw [hb] at h
        cases h
      | ok f' =>
        rw [hb] at h
        cases h
        obtain ⟨valid, hn, ha, rfl⟩ := (Fixture.build_eq_ok_iff _ _ _ _).1 hb
        exact ⟨hn, ha, channelNames_eq_ok_iff.1 hc, valid⟩
  · rintro ⟨hn, ha, lists, valid⟩
    rw [channelNames_eq_ok_iff.2 lists]
    have hb : Fixture.build s.name s.address f.channels = .ok f :=
      (Fixture.build_eq_ok_iff _ _ _ _).2 ⟨valid, hn, ha, rfl⟩
    simp only [hb]
    rfl

/-- What is wrong with a description of which some names are in use: it describes no fixture, or
has a name that is in use. -/
inductive Fault (used : List String) (s : FixtureSpec) : ConfigError → Prop
  | unresolved {e : ConfigError} (failed : s.resolve = .error e) : Fault used s e
  | repeated {f : Fixture} (describes : s.Describes f) (inUse : s.name ∈ used) :
      Fault used s (.repeatedName s.name)

theorem Fault.mono {used used' : List String} {e : ConfigError} (h : s.Fault used e)
    (sub : ∀ n, n ∈ used → n ∈ used') : s.Fault used' e := by
  cases h with
  | unresolved failed => exact .unresolved failed
  | repeated describes inUse => exact .repeated describes (sub _ inUse)

theorem Fault.ne_overlap {used : List String} {e : ConfigError} (h : s.Fault used e) (n : String)
    (a : Nat) (o : String) : e ≠ .fixture (.overlap n a o) := by
  rintro rfl
  cases h with
  | unresolved failed =>
    unfold resolve channelNames at failed
    split at failed
    · rename_i e' hc
      cases failed
      repeat' split at hc
      all_goals cases hc
    · rename_i channels _
      cases hb : Fixture.build s.name s.address channels with
      | ok f =>
        rw [hb] at failed
        cases failed
      | error e =>
        rw [hb] at failed
        cases failed
        exact Fixture.build_ne_overlap _ _ _ _ _ _ hb

/-! ## All descriptions -/

/-- The descriptions describe these fixtures, one each, and no two have the same name. -/
structure Describe (specs : List FixtureSpec) (fixtures : List Fixture) : Prop where
  each : List.Forall₂ Describes specs fixtures
  names : (specs.map (·.name)).Nodup

/-- The first description with which something is wrong where some names are in use already, and
what it is. -/
def FirstFault (used : List String) (specs : List FixtureSpec) (e : ConfigError) : Prop :=
  ∃ before s after, specs = before ++ s :: after ∧ (∃ fixtures, Describe before fixtures) ∧
    (∀ t ∈ before, t.name ∉ used) ∧ s.Fault (before.map (·.name) ++ used) e

variable {used : List String} {specs : List FixtureSpec} {fixtures : List Fixture}

theorem resolveAll_cons_of_describes {f : Fixture} (hd : s.Describes f) :
    resolveAll used (s :: specs) =
      if s.name ∈ used then .error (.repeatedName s.name)
      else (resolveAll (s.name :: used) specs).map (f :: ·) := by
  rw [resolveAll, resolve_eq_ok_iff.2 hd]
  simp only [hd.name_eq]

theorem resolveAll_eq_ok_iff : resolveAll used specs = .ok fixtures ↔
    Describe specs fixtures ∧ ∀ s ∈ specs, s.name ∉ used := by
  induction specs generalizing used fixtures with
  | nil =>
    constructor
    · intro h
      cases h
      exact ⟨⟨.nil, .nil⟩, by simp⟩
    · rintro ⟨⟨h, -⟩, -⟩
      cases h
      rfl
  | cons s rest ih =>
    constructor
    · intro h
      cases hr : s.resolve with
      | error e =>
        rw [resolveAll, hr] at h
        cases h
      | ok f =>
        have hd := resolve_eq_ok_iff.1 hr
        rw [resolveAll_cons_of_describes hd] at h
        split at h
        · cases h
        · rename_i hu
          cases hrest : resolveAll (s.name :: used) rest with
          | error e =>
            rw [hrest] at h
            cases h
          | ok gs =>
            rw [hrest] at h
            cases h
            obtain ⟨⟨each, names⟩, fresh⟩ := ih.1 hrest
            refine ⟨⟨.cons hd each, ?_⟩, ?_⟩
            · rw [List.map_cons, List.nodup_cons]
              refine ⟨fun hm => ?_, names⟩
              obtain ⟨t, ht, he⟩ := List.mem_map.1 hm
              exact fresh t ht (by simp [he])
            · intro t ht
              rcases List.mem_cons.1 ht with rfl | ht
              · exact hu
              · exact fun hm => fresh t ht (List.mem_cons_of_mem _ hm)
    · rintro ⟨⟨each, names⟩, fresh⟩
      obtain ⟨f, gs, hd, hgs, rfl⟩ := List.forall₂_cons_left_iff.1 each
      rw [List.map_cons, List.nodup_cons] at names
      rw [resolveAll_cons_of_describes hd, if_neg (fresh s (by simp))]
      have hrest : resolveAll (s.name :: used) rest = .ok gs := by
        refine ih.2 ⟨⟨hgs, names.2⟩, fun t ht hm => ?_⟩
        rcases List.mem_cons.1 hm with he | hm
        · exact names.1 (he ▸ List.mem_map.2 ⟨t, ht, rfl⟩)
        · exact fresh t (List.mem_cons_of_mem _ ht) hm
      rw [hrest]
      rfl

/-- With a description that is at fault the search ends. -/
theorem firstFault_of_fault {e : ConfigError} (h : s.Fault used e) {e' : ConfigError} :
    FirstFault used (s :: specs) e' ↔ s.Fault used e' := by
  constructor
  · rintro ⟨before, t, after, hs, ⟨fixtures, hd⟩, fresh, fault⟩
    cases before with
    | nil =>
      cases hs
      exact fault
    | cons x before =>
      injection hs with hx hs
      subst hx
      obtain ⟨f, gs, describes, -, -⟩ := List.forall₂_cons_left_iff.1 hd.each
      cases h with
      | unresolved failed => rw [resolve_eq_ok_iff.2 describes] at failed; cases failed
      | repeated _ inUse => exact absurd inUse (fresh s (.head _))
  · intro fault
    exact ⟨[], s, specs, rfl, ⟨[], .nil, .nil⟩, by simp, fault⟩

/-- Behind a description that is in order the search goes on, and its name is in use. -/
theorem firstFault_of_describes {f : Fixture} (describes : s.Describes f) (hu : s.name ∉ used)
    {e : ConfigError} : FirstFault used (s :: specs) e ↔ FirstFault (s.name :: used) specs e := by
  constructor
  · rintro ⟨before, t, after, hs, ⟨fixtures, hd⟩, fresh, fault⟩
    cases before with
    | nil =>
      cases hs
      cases fault with
      | unresolved failed => rw [resolve_eq_ok_iff.2 describes] at failed; cases failed
      | repeated _ inUse => exact absurd inUse hu
    | cons x before =>
      injection hs with hx hs
      subst hx
      obtain ⟨-, gs, -, each, -⟩ := List.forall₂_cons_left_iff.1 hd.each
      obtain ⟨hn, names⟩ := List.nodup_cons.1 hd.names
      refine ⟨before, t, after, hs, ⟨gs, each, names⟩, ?_,
        fault.mono fun _ => List.perm_middle.mem_iff.2⟩
      intro k hk hm
      rcases List.mem_cons.1 hm with he | hm
      · exact hn (List.mem_map.2 ⟨k, hk, he⟩)
      · exact fresh k (List.mem_cons_of_mem _ hk) hm
  · rintro ⟨before, t, after, hs, ⟨fixtures, hd⟩, fresh, fault⟩
    refine ⟨s :: before, t, after, by rw [hs]; rfl,
      ⟨f :: fixtures, .cons describes hd.each, List.nodup_cons.2 ⟨?_, hd.names⟩⟩, ?_,
      fault.mono fun _ => List.perm_middle.mem_iff.1⟩
    · intro hm
      obtain ⟨k, hk, he⟩ := List.mem_map.1 hm
      exact fresh k hk (by simp [he])
    · intro k hk
      rcases List.mem_cons.1 hk with rfl | hk
      · exact hu
      · exact fun hm => fresh k hk (List.mem_cons_of_mem _ hm)

theorem resolveAll_eq_error_iff {e : ConfigError} :
    resolveAll used specs = .error e ↔ FirstFault used specs e := by
  induction specs generalizing used with
  | nil => simp [resolveAll, FirstFault]
  | cons s rest ih =>
    cases hr : s.resolve with
    | error e' =>
      rw [resolveAll, hr, firstFault_of_fault (.unresolved hr)]
      constructor
      · intro h
        cases h
        exact .unresolved hr
      · rintro (failed | ⟨describes, -⟩)
        · rw [failed] at hr
          cases hr
          rfl
        · rw [resolve_eq_ok_iff.2 describes] at hr
          cases hr
    | ok f =>
      have describes := resolve_eq_ok_iff.1 hr
      rw [resolveAll_cons_of_describes describes]
      split
      · rename_i hu
        rw [firstFault_of_fault (.repeated describes hu)]
        constructor
        · intro h
          cases h
          exact .repeated describes hu
        · rintro (failed | -)
          · rw [failed] at hr
            cases hr
          · rfl
      · rename_i hu
        rw [firstFault_of_describes describes hu, ← ih]
        cases resolveAll (s.name :: used) rest <;> simp [Except.map]

theorem plot_eq_ok_iff {rig : List Fixture} : plot specs = .ok rig ↔
    ∃ fixtures, Describe specs fixtures ∧ Plot.arrange fixtures = .ok rig := by
  unfold plot
  constructor
  · intro h
    split at h
    · cases h
    · rename_i fixtures hr
      refine ⟨fixtures, (resolveAll_eq_ok_iff.1 hr).1, ?_⟩
      cases ha : Plot.arrange fixtures with
      | error e => rw [ha] at h; cases h
      | ok rig' => rw [ha] at h; cases h; rfl
  · rintro ⟨fixtures, describe, arranged⟩
    rw [resolveAll_eq_ok_iff.2 ⟨describe, by simp⟩]
    simp only [arranged]
    rfl

theorem plot_eq_error_iff {e : ConfigError} : plot specs = .error e ↔ FirstFault [] specs e ∨
    ∃ fixtures clash, Describe specs fixtures ∧ Plot.arrange fixtures = .error clash ∧
      e = .fixture clash := by
  unfold plot
  constructor
  · intro h
    split at h
    · rename_i hr
      cases h
      exact .inl (resolveAll_eq_error_iff.1 hr)
    · rename_i fixtures hr
      refine .inr ⟨fixtures, ?_⟩
      cases ha : Plot.arrange fixtures with
      | error clash =>
        rw [ha] at h
        cases h
        exact ⟨clash, (resolveAll_eq_ok_iff.1 hr).1, rfl, rfl⟩
      | ok rig =>
        rw [ha] at h
        cases h
  · rintro (fault | ⟨fixtures, clash, describe, refused, rfl⟩)
    · rw [resolveAll_eq_error_iff.2 fault]
    · rw [resolveAll_eq_ok_iff.2 ⟨describe, by simp⟩]
      simp only [refused]
      rfl

/-- Descriptions stand for a plot exactly if they describe fixtures with different names of which no
two share a channel; the plot has these fixtures in the order of their addresses, which ascend.
Else the first description that describes no fixture, or has the name of an earlier one, decides
what is wrong; and only where there is none of that kind it is the first overlap. -/
theorem plot_decides (specs : List FixtureSpec) :
    ((∃ rig, plot specs = .ok rig) ↔
      ∃ fixtures, Describe specs fixtures ∧ fixtures.Pairwise Fixture.Apart) ∧
    (∀ rig, plot specs = .ok rig ↔
      ∃ fixtures, Describe specs fixtures ∧ rig.Perm fixtures ∧ fixtures.Pairwise Fixture.Apart ∧
        rig.Pairwise fun f g => f.address < g.address) ∧
    (∀ e, plot specs = .error e ↔ FirstFault [] specs e ∨
      ∃ fixtures clash, Describe specs fixtures ∧
        Plot.FirstClash (Plot.byAddress fixtures) clash ∧ e = .fixture clash) ∧
    ∀ name address other, ¬ FirstFault [] specs (.fixture (.overlap name address other)) := by
  have ok : ∀ rig, plot specs = .ok rig ↔ ∃ fixtures, Describe specs fixtures ∧
      rig.Perm fixtures ∧ fixtures.Pairwise Fixture.Apart ∧
        rig.Pairwise fun f g => f.address < g.address := by
    intro rig
    rw [plot_eq_ok_iff]
    simp only [Plot.arrange_eq_ok_iff]
  refine ⟨?_, ok, fun e => ?_, ?_⟩
  · constructor
    · rintro ⟨rig, h⟩
      obtain ⟨fixtures, describe, -, apart, -⟩ := (ok rig).1 h
      exact ⟨fixtures, describe, apart⟩
    · rintro ⟨fixtures, describe, apart⟩
      obtain ⟨rig, arranged⟩ := Plot.exists_arrange apart
      exact ⟨rig, plot_eq_ok_iff.2 ⟨fixtures, describe, arranged⟩⟩
  · rw [plot_eq_error_iff]
    simp only [Plot.arrange_eq_error_iff]
  · rintro name address other ⟨before, s, after, -, -, -, fault⟩
    exact fault.ne_overlap name address other rfl

-- a lamp on the last channel of a wash that the file describes after it
example : plot [⟨"lamp", 9, some ["dimmer"], none⟩,
    ⟨"wash", 7, some ["red", "green", "blue"], none⟩] =
    .error (.fixture (.overlap "lamp" 9 "wash")) := by cbv

end FixtureSpec

end LightingDesk
