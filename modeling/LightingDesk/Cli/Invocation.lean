import LightingDesk.Cli.Grammar
import LightingDesk.Number.Read
import LightingDesk.Remote.Action

/-!
# Invocations

The verbs of the program and what its command lines ask for.
-/

namespace LightingDesk.Cli

/-- The name of the program. -/
def program : String := "lightdeck"

/-- What the program prints when it is asked for its version. -/
def version : String := s!"{program} 0.1.0"

/-- The mode that a text stands for. -/
def mode? (s : String) : Option Nat :=
  ((Number.int64? 10 s.toList).bind (Number.within 0 255)).map (·.toNat)

/-- Runs the desk. -/
def startVerb : Verb where
  name := "start"
  about := "Start runs the console until the operator quits"
  operands := [("CONFIG_PATH", "The path to the console config")]
  flags := []

/-- Lists the fixtures. -/
def fixturesVerb : Verb where
  name := "fixtures"
  about := "Validates the fixtures in the console config and lists them"
  operands := [("CONFIG_PATH", "The path to the console config")]
  flags := [⟨"yaml", none, none, fun _ => true,
    "Print the resolved fixtures as YAML instead of a table"⟩]

/-- Plays the part of a controller. -/
def sendVerb : Verb where
  name := "send"
  about := "Sends a single controller action to a running console"
  operands := [("TARGET", "The console address, e.g. 192.168.1.20:6454"),
    ("ACTION", "One of " ++ ", ".intercalate (Action.all.map Action.word))]
  flags := [⟨"mode", some 'm', some "MODE", fun s => (mode? s).isSome,
    "The mode byte to echo [default: 1]"⟩]

/-- Prints a service definition. -/
def serviceVerb : Verb where
  name := "systemd"
  about := "Prints a systemd service definition to stdout"
  operands := []
  flags := []

/-- All verbs. -/
def verbs : List Verb := [startVerb, fixturesVerb, sendVerb, serviceVerb]

/-- What a command line asks for. -/
inductive Invocation
  | start (path : String)
  | fixtures (path : String) (asYaml : Bool)
  | send (target action : String) (mode : UInt8)
  | service
  | help (lines : List String)
  | misuse
deriving DecidableEq, Repr

/-- The line about help, beside those about the verbs. -/
def helpAbout : String := "Print this message or the help of the given subcommand(s)"

/-- The text that explains the program. -/
def overview : List String :=
  ["A lighting console driven by a wireless controller.", "", s!"Usage: {program} <COMMAND>"] ++
    titled "Commands" (verbs.map (fun verb => (verb.name, verb.about)) ++ [("help", helpAbout)]) ++
    titled "Options" [("-h, --help", "Print help"), ("-V, --version", "Print version")]

/-- The text that explains how to ask for help. -/
def helpOnHelp : List String :=
  [helpAbout, "", s!"Usage: {program} help [COMMAND]..."] ++
    titled "Arguments" [("[COMMAND]...", "Print help for the subcommand(s)")]

namespace Invocation

/-- What is asked for with a verb that has been understood. -/
def ofReading (verb : Verb) (r : Reading) : Invocation :=
  match verb.name, r.operands with
  | "start", [path] => start path
  | "fixtures", [path] => fixtures path (r.value? "yaml").isSome
  | "send", [target, action] =>
    send target action (((r.value? "mode").bind mode?).getD 1).toUInt8
  | "systemd", [] => service
  | _, _ => misuse

/-- What is asked for when help is. -/
def ofHelp : List String → Invocation
  | [] => help overview
  | ["help"] => help helpOnHelp
  | [name] =>
    match verbs.find? (·.name == name) with
    | some verb => help (verb.help program)
    | none => misuse
  | _ => misuse

/-- What is asked for before there is a verb. -/
def ofFlags : List Char → Invocation
  | '-' :: 'h' :: _ => help overview
  | '-' :: 'V' :: _ => help [version]
  | cs =>
    match String.ofList cs with
    | "--help" => help overview
    | "--version" => help [version]
    | _ => misuse

/-- What a command line asks for. -/
def ofWords : List String → Invocation
  | [] => misuse
  | "help" :: words => ofHelp words
  | name :: words =>
    match verbs.find? (·.name == name) with
    | some verb =>
      match verb.read words with
      | .ok r => ofReading verb r
      | .error .help => help (verb.help program)
      | .error .misuse => misuse
    | none => ofFlags name.toList

end Invocation

end LightingDesk.Cli
