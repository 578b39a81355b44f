/-!
# Command lines

A program has verbs; a verb takes a fixed number of operands and some flags.  A flag has a name
behind two hyphens, and may have a letter that stands with others behind one.  Its value follows
it, or is attached to it.  The words of a line are read from left to right, and the first one that
asks for help or cannot be understood decides the answer.
-/

namespace LightingDesk.Cli

/-- A flag.  `value` names its value, if it takes one, and `accepts` says which values it takes. -/
structure Flag where
  long : String
  short : Option Char
  value : Option String
  accepts : String → Bool
  about : String

/-- A verb, with a name and a line about each of its operands. -/
structure Verb where
  name : String
  about : String
  operands : List (String × String)
  flags : List Flag

/-- Why a line does not say what to do. -/
inductive Halt
  | help
  | misuse
deriving DecidableEq, Repr

/-- What has been read: operands and values of flags by name, both newest last.  `awaited` is a
flag whose value comes next, and behind two hyphens there are no more flags. -/
structure Reading where
  operands : List String
  given : List (String × String)
  awaited : Option Flag
  isPlain : Bool

namespace Reading

/-- Nothing has been read. -/
def start : Reading := ⟨[], [], none, false⟩

/-- Gives a flag its value; each flag can stand only once. -/
def give (r : Reading) (flag : Flag) (value : String) : Except Halt Reading :=
  if r.given.any (·.1 == flag.long) then .error .misuse
  else if flag.accepts value then
    .ok { r with given := r.given ++ [(flag.long, value)], awaited := none }
  else .error .misuse

/-- Reads an operand, if there is one left. -/
def operand (verb : Verb) (r : Reading) (word : String) : Except Halt Reading :=
  if r.operands.length < verb.operands.length then
    .ok { r with operands := r.operands ++ [word] }
  else .error .misuse

/-- Reads a flag by its name. -/
def long (verb : Verb) (r : Reading) (body : List Char) : Except Halt Reading :=
  let name := String.ofList (body.takeWhile (· ≠ '='))
  let attached := match body.dropWhile (· ≠ '=') with
    | _ :: value => some (String.ofList value)
    | [] => none
  match verb.flags.find? (·.long == name), attached with
  | some flag, some value => if flag.value.isSome then r.give flag value else .error .misuse
  | some flag, none => if flag.value.isSome then .ok { r with awaited := flag } else r.give flag ""
  | none, none => .error (if name = "help" then .help else .misuse)
  | none, some _ => .error .misuse

/-- Reads flags by their letters. -/
def short (verb : Verb) (r : Reading) : List Char → Except Halt Reading
  | [] => .ok r
  | c :: rest =>
    match verb.flags.find? (·.short == some c) with
    | none => .error (if c = 'h' then .help else .misuse)
    | some flag =>
      if flag.value.isSome then
        match rest with
        | [] => .ok { r with awaited := flag }
        | '=' :: value => r.give flag (String.ofList value)
        | value => r.give flag (String.ofList value)
      else
        match r.give flag "" with
        | .ok r => short verb r rest
        | .error halt => .error halt

/-- Reads a word. -/
def word (verb : Verb) (r : Reading) (w : String) : Except Halt Reading :=
  match r.awaited, w.toList with
  | some _, '-' :: _ :: _ => .error .misuse
  | some flag, _ => r.give flag w
  | none, cs =>
    if r.isPlain then r.operand verb w
    else
      match cs with
      | ['-', '-'] => .ok { r with isPlain := true }
      | '-' :: '-' :: body => r.long verb body
      | '-' :: c :: body => r.short verb (c :: body)
      | _ => r.operand verb w

/-- The value that has been given to a flag. -/
def value? (r : Reading) (name : String) : Option String :=
  (r.given.find? (·.1 == name)).map (·.2)

end Reading

namespace Verb

/-- Reads the words behind a verb. -/
def read (verb : Verb) (words : List String) : Except Halt Reading :=
  match words.foldlM (fun r w => Reading.word verb r w) Reading.start with
  | .error halt => .error halt
  | .ok r =>
    if r.awaited.isNone ∧ r.operands.length = verb.operands.length then .ok r else .error .misuse

end Verb

/-! ## Help -/

/-- Two columns, the first as wide as its widest entry. -/
def columns (rows : List (String × String)) : List String :=
  let width := (rows.map fun row => row.1.length).foldl max 0
  rows.map fun (left, right) =>
    let space := String.ofList (List.replicate (width - left.length) ' ')
    s!"  {left}{space}  {right}"

/-- How a flag is written. -/
def Flag.form (flag : Flag) : String :=
  let letter := match flag.short with
    | some c => s!"-{c}, "
    | none => "    "
  let value := match flag.value with
    | some name => s!" <{name}>"
    | none => ""
  s!"{letter}--{flag.long}{value}"

/-- A part of a help text under its title. -/
def titled (title : String) (rows : List (String × String)) : List String :=
  if rows.isEmpty then [] else "" :: s!"{title}:" :: columns rows

/-- The text that explains a verb. -/
def Verb.help (program : String) (verb : Verb) : List String :=
  let flags := if verb.flags.isEmpty then "" else " [OPTIONS]"
  let operands := String.join (verb.operands.map fun (name, _) => s!" <{name}>")
  [verb.about, "", s!"Usage: {program} {verb.name}{flags}{operands}"] ++
    titled "Arguments" (verb.operands.map fun (name, about) => (s!"<{name}>", about)) ++
    titled "Options" (verb.flags.map (fun flag => (flag.form, flag.about)) ++
      [("-h, --help", "Print help")])

end LightingDesk.Cli
