import LightingDesk.Cli.Invocation
import LightingDesk.Session
import LightingDesk.Setup.Listing

/-!
# Outcomes

What comes of an invocation: the code that the program ends with, what it prints, what it complains
of, and at most one datagram.  The code is 0 if all went well, 1 if what was asked for could not be
done, and 2 if it was not clear what was asked for.

    only sending sends                                          (datagram_outcome)
-/

namespace LightingDesk.Cli

/-- What comes of an invocation. -/
structure Outcome where
  code : Nat
  output : String
  complaint : List String
  datagram : Option (Address × List UInt8)
deriving DecidableEq, Repr

namespace Outcome

/-- All went well. -/
def printed (lines : List String) : Outcome := ⟨0, String.join (lines.map (· ++ "\n")), [], none⟩

/-- What was asked for could not be done. -/
def failed (why : String) : Outcome := ⟨1, "", [s!"Error: {why}"], none⟩

/-- It was not clear what was asked for. -/
def misused : Outcome := ⟨2, "", overview, none⟩

end Outcome

/-- The definition of the service that runs the desk. -/
def serviceLines : List String :=
  ["", "[Unit]", "Description=wireless lighting console",
    "After=network-online.target olad.service", "", "[Service]", "Type=simple",
    "Restart=on-failure", "EnvironmentFile=-/etc/default/lightdeck",
    "ExecStart=/usr/local/bin/lightdeck start \"$LIGHTDECK_CONFIG\"", "", "[Install]",
    "WantedBy=multi-user.target", "Alias=lightdeck.service", ""]

/-- Lists the fixtures of a configuration. -/
def listFixtures (site : Site) (environment : List (String × String)) (path : String)
    (asYaml : Bool) : Outcome :=
  match (Config.load site.disk path environment).bind Config.rig with
  | .error e => .failed e.message
  | .ok [] => .printed ["No fixtures configured."]
  | .ok plot => .printed (if asYaml then Listing.configured plot else Listing.plain plot)

/-- Sends an action to a desk, as a controller would. -/
def sendAction (site : Site) (target action : String) (mode : UInt8) : Outcome :=
  match Address.parse? target, Action.ofWord? action with
  | some address, some action =>
    if site.takes 0 address then
      { Outcome.printed [s!"Sent {action.title} to {address.text}."] with
        datagram := some (address, Wire.encode (Packet.ofAction action mode)) }
    else .failed s!"{address.text} cannot be reached"
  | none, _ => .failed s!"{target} is no address"
  | _, none => .failed s!"unknown action {action}"

/-- Starts a desk; the outcome is known at once only if that fails. -/
def startDesk (site : Site) (environment : List (String × String)) (path : String) :
    Except Outcome (Session Frame) :=
  match Config.load site.disk path environment with
  | .error e => .error (.failed e.message)
  | .ok c =>
    match Session.start c site Frame.dark fun _ => Color.black with
    | .error e => .error (.failed e.message)
    | .ok s => .ok s

/-- The code that a desk ends with when the operator quits. -/
def endDesk (s : Session Frame) : Outcome :=
  match s.finish.2 with
  | .ok () => .printed []
  | .error e => .failed e.message

/-- Runs a desk, which meets the given events before the operator quits. -/
def runDesk (site : Site) (environment : List (String × String)) (path : String)
    (events : List Event) : Outcome :=
  match startDesk site environment path with
  | .error o => o
  | .ok s => endDesk (s.run events)

/-- What comes of an invocation, if a desk that has been started meets the given events. -/
def outcome (site : Site) (environment : List (String × String)) (events : List Event) :
    Invocation → Outcome
  | .start path => runDesk site environment path events
  | .fixtures path asYaml => listFixtures site environment path asYaml
  | .send target action mode => sendAction site target action mode
  | .service => .printed serviceLines
  | .help lines => .printed lines
  | .misuse => .misused

/-! ## Lemmas -/

section

variable {site : Site} {environment : List (String × String)} {path : String}

theorem datagram_listFixtures (asYaml : Bool) :
    (listFixtures site environment path asYaml).datagram = none := by
  unfold listFixtures
  split <;> rfl

/-- A desk that cannot be started sends nothing. -/
theorem datagram_startDesk {o : Outcome} (h : startDesk site environment path = .error o) :
    o.datagram = none := by
  unfold startDesk at h
  split at h
  · rw [← Except.error.inj h]
    rfl
  · split at h
    · rw [← Except.error.inj h]
      rfl
    · cases h

theorem datagram_endDesk (s : Session Frame) : (endDesk s).datagram = none := by
  unfold endDesk
  split <;> rfl

theorem datagram_runDesk (events : List Event) :
    (runDesk site environment path events).datagram = none := by
  unfold runDesk
  split
  · rename_i started
    exact datagram_startDesk started
  · exact datagram_endDesk _

theorem datagram_outcome {events : List Event} {i : Invocation}
    (h : (outcome site environment events i).datagram ≠ none) :
    ∃ target action mode, i = .send target action mode := by
  cases i with
  | send target action mode => exact ⟨target, action, mode, rfl⟩
  | start path =>
    rw [outcome] at h
    exact absurd (datagram_runDesk events) h
  | fixtures path asYaml =>
    rw [outcome] at h
    exact absurd (datagram_listFixtures asYaml) h
  | service => exact absurd rfl h
  | help lines => exact absurd rfl h
  | misuse => exact absurd rfl h

end

end LightingDesk.Cli
