import LightingDesk.Dmx.Frame

/-!
# The ring of scenes

Saved scenes and the live scene stand in a ring: the saved ones in order, and then the
live one, from which stepping on leads to the first saved scene again.  The position is
a saved scene, or none for the live one.

    stepping forward and back, or back and forward, leads nowhere       (back_ahead, ahead_back)
-/

namespace LightingDesk

/-- Saved scenes, the live scene and a position among them. -/
structure SceneRing where
  saved : List Frame
  live : Frame
  position : Option Nat
  position_lt : ∀ i ∈ position, i < saved.length := by simp
deriving Repr

namespace SceneRing

/-- The place after another in a ring of `n` saved scenes. -/
def ahead (n : Nat) : Option Nat → Option Nat
  | none => if 0 < n then some 0 else none
  | some i => if i + 1 < n then some (i + 1) else none

/-- The place before another in a ring of `n` saved scenes. -/
def back (n : Nat) : Option Nat → Option Nat
  | none => if 0 < n then some (n - 1) else none
  | some 0 => none
  | some (i + 1) => some i

theorem ahead_lt (n : Nat) (p : Option Nat) : ∀ i ∈ ahead n p, i < n := by
  intro i hi
  cases p <;> simp only [ahead] at hi <;> split at hi <;> simp_all

theorem back_lt (n : Nat) (p : Option Nat) (h : ∀ i ∈ p, i < n) : ∀ i ∈ back n p, i < n := by
  intro i hi
  match p with
  | none => simp only [back] at hi; split at hi <;> simp at hi; omega
  | some 0 => simp [back] at hi
  | some (k + 1) =>
    simp only [back, Option.mem_some_iff] at hi
    have := h (k + 1) rfl
    omega

theorem back_ahead (n : Nat) (p : Option Nat) (h : ∀ i ∈ p, i < n) : back n (ahead n p) = p := by
  match p with
  | none => by_cases hn : 0 < n <;> simp [ahead, back, hn]
  | some i =>
    have := h i rfl
    by_cases hi : i + 1 < n
    · simp [ahead, back, hi]
    · simp [ahead, back, hi]; omega

theorem ahead_back (n : Nat) (p : Option Nat) (h : ∀ i ∈ p, i < n) : ahead n (back n p) = p := by
  match p with
  | none =>
    by_cases hn : 0 < n
    · simp [ahead, back, hn]; omega
    · simp [ahead, back, hn]
  | some 0 => have := h 0 rfl; simp [ahead, back, this]
  | some (k + 1) => have := h (k + 1) rfl; simp [ahead, back, this]

/-- A ring at its live scene, which is dark. -/
def ofScenes (saved : List Frame) : SceneRing := ⟨saved, Frame.dark, none, by simp⟩

/-- How many scenes are saved. -/
def count (r : SceneRing) : Nat := r.saved.length

/-- The scene at the position. -/
def shown (r : SceneRing) : Frame := (r.position.bind (r.saved[·]?)).getD r.live

/-- Moves one place forward. -/
def next (r : SceneRing) : SceneRing :=
  { r with
    position := ahead r.saved.length r.position
    position_lt := ahead_lt _ _ }

/-- Moves one place back. -/
def previous (r : SceneRing) : SceneRing :=
  { r with
    position := back r.saved.length r.position
    position_lt := back_lt _ _ r.position_lt }

/-- Saves a scene behind the others and stays at the same scene. -/
def append (r : SceneRing) (scene : Frame) : SceneRing :=
  { r with
    saved := r.saved ++ [scene]
    position_lt := fun i hi => by have := r.position_lt i hi; simp; omega }

/-- Takes away the saved scene at the position, if there is one, and moves to the live scene. -/
def delete (r : SceneRing) : SceneRing :=
  match r.position with
  | some i => ⟨r.saved.eraseIdx i, r.live, none, by simp⟩
  | none => r

/-- Makes a frame the live scene and moves there. -/
def capture (r : SceneRing) (scene : Frame) : SceneRing := ⟨r.saved, scene, none, by simp⟩

end SceneRing

end LightingDesk
