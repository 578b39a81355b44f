import LightingDesk.Dmx.Frame

/-!
# Writes

A write asks a sink for one of two changes: a run of up to four levels in
consecutive channels, or a whole frame.  `Write.check` says which runs a sink takes;
a run that carries too many levels is refused for that before its place is looked at.

    checkRun a n = .ok () ↔ n ≤ 4 ∧ 1 ≤ a ∧ a + n ≤ 513          (checkRun_eq_ok_iff)
    an accepted write never touches a channel outside its run     (level_apply_run)
-/

namespace LightingDesk

/-- The most levels that one run may carry. -/
def maxRun : Nat := 4

/-- Why a sink did not carry out a write. -/
inductive SinkError
  | outside (address count : Nat)
  | tooWide (count : Nat)
  | output (reason : String)
deriving DecidableEq, Repr

/-- The text shown for a refused or failed write. -/
def SinkError.message : SinkError → String
  | .outside address count =>
    s!"address {address} with {count} values falls outside the universe"
  | .tooWide count => s!"a single write carries at most {maxRun} values, got {count}"
  | .output reason => s!"DMX output failed: {reason}"

/-- A change asked of a sink. -/
inductive Write
  | run (address : Nat) (values : List UInt8)
  | whole (frame : Frame)
deriving DecidableEq, Repr

/-- Refuses a run of `count` levels from `address` on that is too wide or leaves the universe. -/
def checkRun (address count : Nat) : Except SinkError Unit :=
  if count > maxRun then .error (.tooWide count)
  else if 1 ≤ address ∧ address + count ≤ universeSize + 1 then .ok ()
  else .error (.outside address count)

namespace Write

/-- Refuses a run that no sink takes; a whole frame always fits. -/
def check : Write → Except SinkError Unit
  | run address values => checkRun address values.length
  | whole _ => .ok ()

/-- The first channel of a run; 0 stands for a whole frame. -/
def start : Write → Nat
  | run address _ => address
  | whole _ => 0

end Write

/-- The frame after an accepted write. -/
def Frame.apply (f : Frame) : Write → Frame
  | .run address values => f.store address values
  | .whole g => g.grounded

/-! ## Lemmas -/

theorem checkRun_eq_ok_iff (address count : Nat) :
    checkRun address count = .ok () ↔ count ≤ 4 ∧ 1 ≤ address ∧ address + count ≤ 513 := by
  unfold checkRun maxRun universeSize
  split
  · simp; omega
  · split
    · simp; omega
    · simp; omega

theorem level_apply_run (f : Frame) (address d : Nat) (values : List UInt8)
    (h : d < address ∨ address + values.length ≤ d) :
    (f.apply (.run address values)).level d = f.level d := by
  rw [Frame.apply, Frame.level_store]
  split
  · rename_i hd
    have : values[d - address]? = none := by
      rw [List.getElem?_eq_none_iff]; omega
    simp [this]
  · rfl

end LightingDesk
