import LightingDesk.Link.Address
import LightingDesk.Setup.FixtureSpec
import LightingDesk.Setup.Output
import LightingDesk.Setup.Settings
import LightingDesk.Show.Chase

/-!
# Configurations

A configuration holds what its settings say; times and addresses are kept as they were written,
and a setting that has not been made has a preset.  Whether a time, an address or the fixtures
make sense shows when they are asked for.

    the queue has room                                          (queueRoom_pos)
-/

namespace LightingDesk

/-- The settings of a desk.  `none` is a setting that has not been made. -/
structure Config where
  port : Option UInt16
  bindAddress : Option String
  broadcastAddress : Option String
  heartbeatInterval : Option String
  queueCapacity : Option Nat
  stopTimeout : Option String
  chaseDelay : Option String
  sceneFile : Option String
  output : Output
  fixtures : List FixtureSpec
deriving DecidableEq, Repr

namespace Config

/-- The keys of the settings. -/
def keys : List String :=
  ["port", "bind_address", "broadcast_address", "heartbeat_interval", "queue_capacity",
    "stop_timeout", "chase_delay", "scene_file", "output", "fixtures"]

/-- The configuration that settings make. -/
def ofSettings? (settings : List (String × Value)) : Option Config := do
  let setting (key : String) : Option Value := Value.find? settings key
  let textOf (key : String) : Option (Option String) := Field.optional Field.text? (setting key)
  return {
    port := (← Field.optional (Field.countUpTo 65535) (setting "port")).map (·.toUInt16)
    bindAddress := ← textOf "bind_address"
    broadcastAddress := ← textOf "broadcast_address"
    heartbeatInterval := ← textOf "heartbeat_interval"
    queueCapacity := ← Field.optional (Field.countUpTo Binary64.greatest) (setting "queue_capacity")
    stopTimeout := ← textOf "stop_timeout"
    chaseDelay := ← textOf "chase_delay"
    sceneFile := ← textOf "scene_file"
    output := ← Output.ofSetting (setting "output")
    fixtures := ← FixtureSpec.ofSetting (setting "fixtures") }

/-- Reads the configuration in a file, with the settings of the environment laid over it. -/
def load (d : Disk) (path : String) (environment : List (String × String)) :
    Except ConfigError Config :=
  match (Settings.load? d path).bind fun s =>
      ofSettings? (Settings.withEnvironment s environment) with
  | some c => .ok c
  | none => .error .unreadable

/-! ## Settings with their presets -/

/-- The port that the desk and the controllers share. -/
def sharedPort (c : Config) : UInt16 := c.port.getD linkPort

/-- The span that a setting says. -/
def spanOr (key : String) (preset : Nat) : Option String → Except ConfigError Nat
  | none => .ok preset
  | some s => (Duration.read s).mapError (.duration key)

/-- The address that a setting says, with the shared port. -/
def addressOr (c : Config) (key : String) (preset : Ip) : Option String → Except ConfigError Address
  | none => .ok ⟨preset, c.sharedPort, 0⟩
  | some s =>
    match Ip.parse? s with
    | some ip => .ok ⟨ip, c.sharedPort, 0⟩
    | none => .error (.address key s)

/-- Where the desk listens. -/
def listensAt (c : Config) : Except ConfigError Address :=
  c.addressOr "bind_address" (.v4 0 0 0 0) c.bindAddress

/-- Where heartbeats go while there is no controller. -/
def broadcastsTo (c : Config) : Except ConfigError Address :=
  c.addressOr "broadcast_address" (.v4 255 255 255 255) c.broadcastAddress

/-- The time from one heartbeat to the next. -/
def beatInterval (c : Config) : Except ConfigError Nat :=
  spanOr "heartbeat_interval" (Span.ofSeconds 3) c.heartbeatInterval

/-- How many packets may wait for the desk. -/
def queueRoom (c : Config) : Nat := max (c.queueCapacity.getD 64) 1

/-- How long a part of the desk may take to stop. -/
def stopLimit (c : Config) : Except ConfigError Nat :=
  spanOr "stop_timeout" (Span.ofSeconds 2) c.stopTimeout

/-- The delay that chases start with. -/
def startDelay (c : Config) : Except ConfigError Nat :=
  (spanOr "chase_delay" (Span.ofMillis 100) c.chaseDelay).map Chase.clamp

/-- The fixtures of the desk. -/
def rig (c : Config) : Except ConfigError (List Fixture) := FixtureSpec.plot c.fixtures

theorem queueRoom_pos (c : Config) : 0 < c.queueRoom := by
  unfold queueRoom
  omega

end Config

end LightingDesk
