/-!
# Frames

A DMX universe has 512 channels, numbered from 1.  A `Frame` holds one level for
every channel, with an unused slot in front so that a channel's number is its index.
Levels are read by `Frame.level`, which is total: past the end every level is zero.

    (f.put c v).level d = if c = d ∧ d < 513 then v else f.level d            (level_put)
    (f.store a vs).level d = vs[d - a] inside the run, f.level d elsewhere    (level_store)
    two frames with the same levels are equal                                 (ext_level)
-/

namespace LightingDesk

/-- How many channels a universe has. -/
def universeSize : Nat := 512

/-- The level of every channel of a universe; slot 0 stands in front of channel 1. -/
structure Frame where
  levels : Vector UInt8 513
deriving DecidableEq, Repr

namespace Frame

/-- Every channel at zero. -/
def dark : Frame := ⟨Vector.replicate 513 0⟩

instance : Inhabited Frame := ⟨dark⟩

/-- The level of channel `c`; there is nothing but zero past the last channel. -/
def level (f : Frame) (c : Nat) : UInt8 := f.levels[c]?.getD 0

/-- Gives channel `c` the level `v`; a channel past the end is ignored. -/
def put (f : Frame) (c : Nat) (v : UInt8) : Frame := ⟨f.levels.setIfInBounds c v⟩

/-- Stores levels in consecutive channels from `start` on. -/
def store (f : Frame) (start : Nat) : List UInt8 → Frame
  | [] => f
  | v :: vs => (f.put start v).store (start + 1) vs

/-- The levels of `count` consecutive channels from `start` on. -/
def slice (f : Frame) (start count : Nat) : List UInt8 :=
  (List.range count).map fun i => f.level (start + i)

/-- The frame a sink keeps: the slot in front of channel 1 is zero. -/
def grounded (f : Frame) : Frame := f.put 0 0

/-- The frame whose slots hold the given list, zero where the list ends early. -/
def ofList (vs : List UInt8) : Frame := dark.store 0 vs

/-- All 513 slots in order. -/
def toList (f : Frame) : List UInt8 := f.levels.toList

/-! ## Lemmas -/

theorem level_of_lt (f : Frame) {c : Nat} (h : c < 513) : f.level c = f.levels[c] := by
  simp [level, h]

theorem level_of_ge (f : Frame) {c : Nat} (h : 513 ≤ c) : f.level c = 0 := by
  simp [level, Vector.getElem?_eq_none h]

@[simp] theorem level_dark (c : Nat) : dark.level c = 0 := by
  by_cases h : c < 513
  · simp [level_of_lt _ h, dark]
  · exact level_of_ge _ (by omega)

/-- Two frames with the same levels are equal. -/
theorem ext_level {f g : Frame} (h : ∀ c, c < 513 → f.level c = g.level c) : f = g := by
  cases f with
  | mk fl =>
    cases g with
    | mk gl =>
      congr 1
      refine Vector.ext fun c hc => ?_
      have := h c hc
      rwa [level_of_lt _ hc, level_of_lt _ hc] at this

theorem level_put (f : Frame) (c d : Nat) (v : UInt8) :
    (f.put c v).level d = if c = d ∧ d < 513 then v else f.level d := by
  by_cases hd : d < 513
  · by_cases hc : c = d
    · subst hc; simp [level, put, hd]
    · simp [level, put, hc]
  · rw [level_of_ge _ (by omega), level_of_ge _ (by omega)]
    simp [hd]

/-- A run of stores changes the channels of the run and no others. -/
theorem level_store (f : Frame) (start d : Nat) (vs : List UInt8) :
    (f.store start vs).level d =
      if start ≤ d ∧ d < 513 then (vs[d - start]?).getD (f.level d) else f.level d := by
  induction vs generalizing f start with
  | nil => simp [store]
  | cons v vs ih =>
    rw [store, ih, level_put]
    by_cases hlt : d < start
    · simp [show ¬ start ≤ d by omega, show ¬ start + 1 ≤ d by omega, show ¬ start = d by omega]
    · by_cases heq : start = d
      · subst heq
        rw [if_neg (fun h => absurd h.1 (Nat.not_succ_le_self start))]
        by_cases hs : start < 513 <;> simp [hs]
      · have e : d - start = (d - (start + 1)) + 1 := by omega
        simp [show start ≤ d by omega, show start + 1 ≤ d by omega, heq, e]

@[simp] theorem length_slice (f : Frame) (start count : Nat) :
    (f.slice start count).length = count := by
  simp [slice]

@[simp] theorem level_grounded_zero (f : Frame) : f.grounded.level 0 = 0 := by
  simp [grounded, level_put]

theorem level_grounded (f : Frame) {c : Nat} (h : 1 ≤ c) : f.grounded.level c = f.level c := by
  simp [grounded, level_put, show ¬ 0 = c by omega]

theorem grounded_dark : dark.grounded = dark := by
  refine ext_level fun c _ => ?_
  rw [grounded, level_put, level_dark]
  split <;> rfl

end Frame

end LightingDesk
