import LightingDesk.Color.Rgb

/-!
# The color wheel

Hue, saturation and value are turned into a color by the hexcone rule: the hue circle has
six sectors of 60 degrees, and inside a sector one of the three parts runs from nothing
to the full chroma.  On the wheel a joystick's angle picks the hue and its distance from the
center the saturation; a pocket around the center is white, and past the rim is black.
-/

namespace LightingDesk.Color

/-- Takes away `m · 2^k` where it fits, for `k` from the largest exponent down to 0.  No step
rounds, for each leaves less than the amount it takes away. -/
def reduce (size m : Float) : Float :=
  (List.range 1031).foldr
    (fun k r =>
      let amount := m.scaleB (Int.ofNat k)
      if r ≥ amount then r - amount else r)
    size

/-- The remainder of a division by a positive `m`, with the sign of `x`, exactly. -/
def remainder (x m : Float) : Float :=
  if x.isNaN || x.isInf then 0.0 / 0.0
  else
    let r := if x.abs < m then x.abs else reduce x.abs m
    if x < 0 then -r else r

/-- The remainder brought into `[0, m]`; for a tiny negative `x` it can come out as `m`. -/
def euclideanRemainder (x m : Float) : Float :=
  let r := remainder x m
  if r < 0 then r + m else r

/-- A part between 0 and 1 as a level, halves going up. -/
def levelOf (part : Float) : UInt8 := (part * 255.0).round.toUInt8

/-- The color of a hue in degrees, a saturation and a value. -/
def ofHsv (hue saturation value : Float) : Color :=
  let h := euclideanRemainder hue 360.0
  let chroma := value * saturation
  let x := chroma * (1.0 - (remainder (h / 60.0) 2.0 - 1.0).abs)
  let m := value - chroma
  let (r, g, b) :=
    match (h / 60.0).floor.toUInt8.toNat % 6 with
    | 0 => (chroma, x, 0.0)
    | 1 => (x, chroma, 0.0)
    | 2 => (0.0, chroma, x)
    | 3 => (0.0, x, chroma)
    | 4 => (x, 0.0, chroma)
    | _ => (chroma, 0.0, x)
  ⟨levelOf (r + m), levelOf (g + m), levelOf (b + m)⟩

/-- Joystick axes report positions below this. -/
def joystickRange : Int := 4096

/-- The radius of the wheel, in the steps of a quarter of the joystick's resolution. -/
def wheelRadius : Int := 512

/-- Closer to the center than this the wheel is white. -/
def whiteRadius : Int := 32

/-- A joystick position on one axis as a distance from the wheel's center; positions outside
the joystick's range count as its ends. -/
def fromCenter (position : Int) : Int :=
  max 0 (min position (joystickRange - 1)) / 4 - wheelRadius

/-- Degrees in a radian. -/
def degreesPerRadian : Float := 180.0 / 3.14159265358979323846

/-- The color under a joystick position. -/
def wheel (x y : Int) : Color :=
  let dx := fromCenter x
  let dy := fromCenter y
  let distance := (Float.ofInt (dx * dx + dy * dy)).sqrt
  if distance > Float.ofInt wheelRadius then black
  else if distance < Float.ofInt whiteRadius then white
  else
    let angle := Float.atan2 (Float.ofInt dx) (Float.ofInt dy) * degreesPerRadian
    ofHsv angle (distance / Float.ofInt wheelRadius) 1.0

end LightingDesk.Color
