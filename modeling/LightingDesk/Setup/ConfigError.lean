import LightingDesk.Rig.Fixture
import LightingDesk.Setup.Duration

/-!
# Faults of a configuration

Why a configuration, or one of its settings, cannot be used.  What is wrong with a fixture is
said in the fixture's own words.
-/

namespace LightingDesk

/-- Why a configuration cannot be used. -/
inductive ConfigError
  | unreadable
  | duration (key : String) (fault : DurationFault)
  | address (key value : String)
  | noChannels (name : String)
  | unknownLayout (name layout : String)
  | repeatedName (name : String)
  | fixture (e : FixtureError)
deriving DecidableEq, Repr

/-- The text shown for a configuration that is refused. -/
def ConfigError.message : ConfigError → String
  | .unreadable => "the configuration cannot be read"
  | .duration key fault => s!"invalid duration for {key}: {fault.message}"
  | .address key value => s!"invalid address for {key}: {value}"
  | .noChannels name => s!"fixture {name} must list channels or name a template"
  | .unknownLayout name layout => s!"fixture {name} uses unknown template {layout}"
  | .repeatedName name => s!"fixture name {name} is used more than once"
  | .fixture e => e.message

end LightingDesk
