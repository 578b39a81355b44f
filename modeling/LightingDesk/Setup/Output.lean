import LightingDesk.Setup.Value

/-!
# Outputs

Where the levels go: nowhere, or to one universe of a daemon that listens on a port of this
machine.  An output is a table with a kind, or a list of what the table would hold; here
nothing stands for anything else.
-/

namespace LightingDesk

/-- Where the levels go. -/
inductive Output
  | dummy
  | daemon (universeNumber : UInt32) (port : UInt16)
deriving DecidableEq, Repr

namespace Output

/-- A whole number below `size`, or `preset` if there is none. -/
def numberOr (preset size : Nat) : Option Value → Option Nat
  | none => some preset
  | some .null => some preset
  | some (.int n) => if 0 ≤ n ∧ n < size then some n.toNat else none
  | some _ => none

/-- The daemon's universe and port; 1 and 9010 unless they are set. -/
def daemonOf (number port : Option Value) : Option Output :=
  match numberOr 1 4294967296 number, numberOr 9010 65536 port with
  | some number, some port => some (.daemon number.toUInt32 port.toUInt16)
  | _, _ => none

/-- The output that a value describes. -/
def ofValue? : Value → Option Output
  | .table fields =>
    match Value.find? fields "kind" with
    | some (.text "dummy") => some .dummy
    | some (.text "ola") =>
      daemonOf (Value.find? fields "universe") (Value.find? fields "port")
    | _ => none
  | .list [.text "dummy"] => some .dummy
  | .list [.text "ola", number, port] => daemonOf (some number) (some port)
  | _ => none

/-- The output that is set. -/
def ofSetting : Option Value → Option Output
  | some v => ofValue? v
  | none => some .dummy

end Output

end LightingDesk
