import LightingDesk.Dmx.Write

/-!
# Fixtures

A fixture is a light that occupies a run of consecutive channels, each with a name.  What
makes a fixture usable is part of the type; `Fixture.build` finds the first thing that is
wrong, in a fixed order: the name, the number of channels, the address, the end of the
run, and then the channel names from left to right.

    a name list without a fault has no empty and no repeated name   (firstFault_eq_none_iff)
    build succeeds iff every check holds                            (build_eq_ok_iff)
-/

namespace LightingDesk

/-- What is wrong with a list of channel names. -/
inductive ChannelFault
  | empty
  | repeated (channel : String)
deriving DecidableEq, Repr

/-- Why something is no fixture, or cannot stand beside the others. -/
inductive FixtureError
  | emptyName
  | channelCount (name : String) (count : Nat)
  | badAddress (name : String) (address : Nat)
  | outOfUniverse (name : String) (address count : Nat)
  | badChannel (name : String) (fault : ChannelFault)
  | overlap (name : String) (address : Nat) (other : String)
deriving DecidableEq, Repr

/-- The text shown for a fixture that is refused. -/
def FixtureError.message : FixtureError → String
  | .emptyName => "fixture name may not be empty"
  | .channelCount name count =>
    s!"fixture {name} must have between 1 and {universeSize} channels, has {count}"
  | .badAddress name address =>
    s!"fixture {name} has address {address}, must be within [1, {universeSize}]"
  | .outOfUniverse name address count =>
    s!"fixture {name} at {address} with {count} channels runs past the end of the universe"
  | .badChannel name .empty => s!"fixture {name} has an empty channel name"
  | .badChannel name (.repeated channel) => s!"fixture {name} has duplicate channel {channel}"
  | .overlap name address other =>
    s!"fixture {name} at {address} overlaps the channels of fixture {other}"

/-- A light and the channels it occupies: `channels[i]` is at `address + i`. -/
structure Fixture where
  name : String
  address : Nat
  channels : List String
  name_ne : name ≠ ""
  channels_pos : 0 < channels.length
  address_pos : 1 ≤ address
  fits : address + channels.length ≤ 513
  named : "" ∉ channels
  distinct : channels.Nodup
deriving DecidableEq, Repr

/-- The first fault in a list of channel names, given the names already used. -/
def firstFault (used : List String) : List String → Option ChannelFault
  | [] => none
  | c :: rest =>
    if c = "" then some .empty
    else if c ∈ used then some (.repeated c)
    else firstFault (c :: used) rest

theorem firstFault_eq_none_iff (used channels : List String) :
    firstFault used channels = none ↔
      "" ∉ channels ∧ channels.Nodup ∧ ∀ c ∈ channels, c ∉ used := by
  induction channels generalizing used with
  | nil => simp [firstFault]
  | cons c rest ih =>
    unfold firstFault
    split
    · rename_i h; subst h; simp
    · rename_i hne
      split
      · rename_i hm; simp [hm]
      · rename_i hm
        rw [ih]
        have hne' : ¬ "" = c := fun e => hne e.symm
        simp only [List.mem_cons, List.nodup_cons, hne', false_or, forall_eq_or_imp, not_or]
        constructor
        · rintro ⟨h1, h2, h3⟩
          exact ⟨h1, ⟨fun hc => (h3 c hc).1 rfl, h2⟩, hm, fun d hd => (h3 d hd).2⟩
        · rintro ⟨h1, ⟨h2, h3⟩, _, h4⟩
          exact ⟨h1, h3, fun d hd => ⟨fun e => h2 (e ▸ hd), h4 d hd⟩⟩

namespace Fixture

/-- Checks a description and makes a fixture of it. -/
def build (name : String) (address : Nat) (channels : List String) :
    Except FixtureError Fixture :=
  if hn : name = "" then .error .emptyName
  else if hc : channels.length = 0 ∨ universeSize < channels.length then
    .error (.channelCount name channels.length)
  else if ha : address < 1 ∨ universeSize < address then .error (.badAddress name address)
  else if hf : universeSize + 1 < address + channels.length then
    .error (.outOfUniverse name address channels.length)
  else
    match hu : firstFault [] channels with
    | some fault => .error (.badChannel name fault)
    | none =>
      have hall := (firstFault_eq_none_iff [] channels).1 hu
      .ok
        { name, address, channels
          name_ne := hn
          channels_pos := by omega
          address_pos := by omega
          fits := by unfold universeSize at hf; omega
          named := hall.1
          distinct := hall.2.1 }

/-- How many channels the fixture occupies. -/
def count (f : Fixture) : Nat := f.channels.length

/-- The first channel after the fixture's own. -/
def stop (f : Fixture) : Nat := f.address + f.count

/-- The place of a channel among the fixture's channels. -/
def offset (f : Fixture) (channel : String) : Option Nat := f.channels.idxOf? channel

/-- The channels that carry color, the one to light first in front. -/
def colorChannels : List String := ["red", "green", "blue", "amber", "white"]

/-- The channel that is lit when a fixture without any color has to be seen. -/
def defaultColor (f : Fixture) : Option Nat := colorChannels.findSome? f.offset

/-- The fixture's own levels. -/
def values (f : Fixture) (frame : Frame) : List UInt8 := frame.slice f.address f.count

/-- Whether any color channel of the fixture is lit. -/
def hasColor (f : Fixture) (frame : Frame) : Bool :=
  (colorChannels.filterMap f.offset).any fun i => frame.level (f.address + i) ≠ 0

/-- One line about the fixture. -/
def describe (f : Fixture) : String := s!"{f.name} @ {f.address} ({f.count} channels)"

/-- What the description of a fixture must satisfy. -/
def Valid (name : String) (address : Nat) (channels : List String) : Prop :=
  name ≠ "" ∧ 1 ≤ channels.length ∧ channels.length ≤ 512 ∧ 1 ≤ address ∧ address ≤ 512 ∧
    address + channels.length ≤ 513 ∧ "" ∉ channels ∧ channels.Nodup

/-- A description is accepted exactly when it is valid, and is then kept as it is. -/
theorem build_eq_ok_iff (name : String) (address : Nat) (channels : List String) (f : Fixture) :
    build name address channels = .ok f ↔
      Valid name address channels ∧ f.name = name ∧ f.address = address ∧
        f.channels = channels := by
  constructor
  · intro h
    unfold build at h
    split at h
    · simp at h
    split at h
    · simp at h
    split at h
    · simp at h
    split at h
    · simp at h
    rename_i hn hc ha hf
    split at h
    · simp at h
    · injection h with h
      subst h
      rename_i hu
      have hall := (firstFault_eq_none_iff [] channels).1 hu
      unfold universeSize at hc ha hf
      exact ⟨⟨hn, by omega, by omega, by omega, by omega, by omega, hall.1, hall.2.1⟩,
        rfl, rfl, rfl⟩
  · rintro ⟨⟨hn, h1, h2, h3, h4, h5, h6, h7⟩, rfl, rfl, rfl⟩
    have hu : firstFault [] f.channels = none :=
      (firstFault_eq_none_iff [] f.channels).2 ⟨h6, h7, by simp⟩
    unfold build
    rw [dif_neg hn, dif_neg (by unfold universeSize; omega),
      dif_neg (by unfold universeSize; omega), dif_neg (by unfold universeSize; omega)]
    split
    · rename_i hs; rw [hu] at hs; simp at hs
    · rfl

end Fixture

end LightingDesk
