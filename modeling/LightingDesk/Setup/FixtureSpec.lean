import LightingDesk.Rig.Layout
import LightingDesk.Rig.Plot
import LightingDesk.Setup.ConfigError
import LightingDesk.Setup.Field

/-!
# Fixture descriptions

A configuration describes a fixture by its name, its address, and its channels: it lists them or
names a layout, and the list goes before the name.  The descriptions stand for a plot if each
of them stands for a fixture, no name is used twice, and no two fixtures share a channel.

    a fixture's own description stands for it                   (resolve_ofFixture)
-/

namespace LightingDesk

/-- A fixture as a configuration describes it. -/
structure FixtureSpec where
  name : String
  address : Nat
  channels : Option (List String)
  layout : Option String
deriving DecidableEq, Repr

namespace FixtureSpec

/-- The description with the given parts, if they can be used. -/
def ofParts (name address : Value) (channels layout : Option Value) : Option FixtureSpec := do
  return ⟨← Field.text? name, ← Field.countUpTo 65535 address,
    ← Field.optional Field.texts? channels, ← Field.optional Field.text? layout⟩

/-- The description that a value is: a table, or a list of its four parts. -/
def ofValue? : Value → Option FixtureSpec
  | .table fields =>
    match Value.find? fields "name", Value.find? fields "address" with
    | some name, some address =>
      ofParts name address (Value.find? fields "channels") (Value.find? fields "template")
    | _, _ => none
  | .list (name :: address :: channels :: layout :: _) =>
    ofParts name address (some channels) (some layout)
  | _ => none

/-- The descriptions that are set; without a setting there are none. -/
def ofSetting : Option Value → Option (List FixtureSpec)
  | none => some []
  | some (.list items) => items.mapM ofValue?
  | some _ => none

/-- The channels that a description gives its fixture. -/
def channelNames (s : FixtureSpec) : Except ConfigError (List String) :=
  match s.channels, s.layout with
  | some channels, _ => .ok channels
  | none, some layout =>
    match layout? layout with
    | some channels => .ok channels
    | none => .error (.unknownLayout s.name layout)
  | none, none => .error (.noChannels s.name)

/-- The fixture that a description stands for. -/
def resolve (s : FixtureSpec) : Except ConfigError Fixture :=
  match s.channelNames with
  | .error e => .error e
  | .ok channels => (Fixture.build s.name s.address channels).mapError .fixture

/-- The fixtures that descriptions stand for, in their order.  The first description that stands
for none, or has a name that is in use, decides what is wrong. -/
def resolveAll (used : List String) : List FixtureSpec → Except ConfigError (List Fixture)
  | [] => .ok []
  | s :: rest =>
    match s.resolve with
    | .error e => .error e
    | .ok f =>
      if f.name ∈ used then .error (.repeatedName f.name)
      else (resolveAll (f.name :: used) rest).map (f :: ·)

/-- The plot that descriptions stand for. -/
def plot (specs : List FixtureSpec) : Except ConfigError (List Fixture) :=
  match resolveAll [] specs with
  | .error e => .error e
  | .ok fixtures => (Plot.arrange fixtures).mapError .fixture

/-- The description that lists a fixture's channels. -/
def ofFixture (f : Fixture) : FixtureSpec := ⟨f.name, f.address, some f.channels, none⟩

theorem resolve_ofFixture (f : Fixture) : (ofFixture f).resolve = .ok f := by
  have h : Fixture.build f.name f.address f.channels = .ok f := by
    have h1 := f.channels_pos
    have h2 := f.address_pos
    have h3 := f.fits
    rw [Fixture.build_eq_ok_iff]
    exact ⟨⟨f.name_ne, by omega, by omega, by omega, by omega, by omega, f.named, f.distinct⟩,
      rfl, rfl, rfl⟩
  unfold resolve channelNames ofFixture
  simp only
  rw [h]
  rfl

end FixtureSpec

end LightingDesk
