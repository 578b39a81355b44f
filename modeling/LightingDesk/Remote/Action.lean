import LightingDesk.Text.Fold

/-!
# Actions

The buttons and directions of the wireless controller, with their codes on the wire and the
words that name them on the command line.
-/

namespace LightingDesk

/-- Something pressed on the controller. -/
inductive Action
  | up
  | down
  | left
  | right
  | ps2
  | ps2Long
  | b1
  | b2
  | b12
  | konami
  | reverseKonami
  | semiKonami
deriving DecidableEq, Repr

namespace Action

/-- Every action. -/
def all : List Action :=
  [up, down, left, right, ps2, ps2Long, b1, b2, b12, konami, reverseKonami, semiKonami]

/-- The byte that stands for the action. -/
def code : Action → UInt8
  | up => 0x11
  | down => 0x12
  | left => 0x13
  | right => 0x14
  | ps2 => 0x01
  | ps2Long => 0x41
  | b1 => 0x02
  | b2 => 0x03
  | b12 => 0x04
  | konami => 0x31
  | reverseKonami => 0x32
  | semiKonami => 0x33

/-- The action that a byte stands for. -/
def ofCode? (n : UInt8) : Option Action := all.find? (·.code == n)

/-- The word for the action on the command line. -/
def word : Action → String
  | up => "up"
  | down => "down"
  | left => "left"
  | right => "right"
  | ps2 => "ps2"
  | ps2Long => "ps2-long"
  | b1 => "b1"
  | b2 => "b2"
  | b12 => "b12"
  | konami => "konami"
  | reverseKonami => "rev-konami"
  | semiKonami => "semi-konami"

/-- The action that a word names, in any case. -/
def ofWord? (s : String) : Option Action :=
  let small := Text.lower s
  all.find? (·.word == small)

/-- The action's name in reports. -/
def title : Action → String
  | up => "Up"
  | down => "Down"
  | left => "Left"
  | right => "Right"
  | ps2 => "Ps2"
  | ps2Long => "Ps2Long"
  | b1 => "B1"
  | b2 => "B2"
  | b12 => "B12"
  | konami => "Konami"
  | reverseKonami => "ReverseKonami"
  | semiKonami => "SemiKonami"

end Action

end LightingDesk
