import LightingDesk.Text.Fold

/-!
# Layouts

The channel lists of the fixture types that the desk knows by name.
-/

namespace LightingDesk

/-- The channels of a known fixture type; its name may be written in any case. -/
def layout? (name : String) : Option (List String) :=
  match Text.lower name with
  | "exa" =>
    some ["dimmer", "red", "green", "blue", "amber", "white", "uv", "strobe", "auto", "auto_speed",
      "color_wheel", "unknown"]
  | "zoom" =>
    some ["dimmer", "red", "green", "blue", "amber", "white", "strobe", "zoom", "preset",
      "unknown1", "unknown2"]
  | "snakeye" =>
    some ["pan", "tilt", "infinite_tilt", "pan_tilt_speed", "red", "green", "blue", "white",
      "strobe", "dimmer", "led_program", "program_speed", "color_macros", "auto_program"]
  | _ => none

end LightingDesk
