import LightingDesk.Disk.Tree
import LightingDesk.Json.Reader
import LightingDesk.Setup.KeyPath
import LightingDesk.Text.Fold
import LightingDesk.Yaml.Reader

/-!
# Settings

Settings are the fields of a table: those of a file, and over them those of the environment.  The
extension of a file says which format it is in; if there is no such file, the extensions of the
formats are tried behind its name.  A variable of the environment is a setting if its name begins
with `lightdeck_`, in any case.
-/

namespace LightingDesk

/-- A format that settings can be written in. -/
inductive Format
  | yaml
  | json
deriving DecidableEq, Repr

namespace Format

/-- The extensions of the files that are in a format, and the format. -/
def extensions : List (String × Format) := [("yaml", yaml), ("yml", yaml), ("json", json)]

/-- The fields that a text holds; an empty document has none. -/
def read? (format : Format) (text : String) : Option (List (String × Value)) :=
  let root := match format with
    | yaml =>
      match Yaml.read? text with
      | some (some node) => node.value?
      | some none => some (.table [])
      | none => none
    | json => Json.read? text
  match root with
  | some (.table fields) => some fields
  | _ => none

end Format

namespace Settings

/-- What stands behind the last point of a name, unless that is the first character. -/
def extension (name : String) : String :=
  match name.toList.reverse.span (· ≠ '.') with
  | (back, '.' :: _ :: _) => String.ofList back.reverse
  | _ => ""

/-- A path from the root that leads where a path from a folder leads. -/
def fromRoot (home : Place) (path : String) : String :=
  if Disk.isAbsolute path then path else "/" ++ "/".intercalate (home ++ [path])

/-- The paths with the extensions of the formats behind the name that a path from the root ends in.
Parts behind that name that stay in a folder are left out. -/
def extended (path : String) : List (String × Format) :=
  let stays (part : String) : Bool := part = "" ∨ part = "."
  let parts := ((Disk.parts path).reverse.dropWhile stays).reverse
  match parts.getLast? with
  | none => []
  | some ".." => []
  | some _ =>
    let name := "/".intercalate parts
    Format.extensions.map fun (suffix, format) => (s!"{name}.{suffix}", format)

/-- The settings file that a path names, and the format it is in. -/
def file? (d : Disk) (path : String) : Option (Format × String) :=
  let whole := fromRoot d.home path
  match d.find whole with
  | .text contents =>
    let suffix := extension ((Disk.parts whole).getLast?.getD whole)
    (Format.extensions.find? (·.1 == suffix)).map fun (_, format) => (format, contents)
  | _ =>
    (extended whole).findSome? fun (other, format) =>
      match d.find other with
      | .text contents => some (format, contents)
      | _ => none

/-- A text without the mark that may stand at its start. -/
def unmarked (text : String) : String :=
  match text.toList with
  | '\ufeff' :: rest => String.ofList rest
  | _ => text

/-- Fields laid over settings, each by its path. -/
def lay (settings fields : List (String × Value)) : List (String × Value) :=
  fields.foldl (fun s (key, v) => Value.assign s (KeyPath.ofText key) v) settings

/-- The settings in a file. -/
def load? (d : Disk) (path : String) : Option (List (String × Value)) :=
  match file? d path with
  | some (format, contents) => (format.read? (unmarked contents)).map (lay [])
  | none => none

/-- What the names of variables begin with that are settings. -/
def mark : String := "lightdeck_"

/-- The value that the text of a variable has: a truth value or a number, if it is one. -/
def valueOf (text : String) : Value :=
  match Text.lower text with
  | "true" => .bool true
  | "false" => .bool false
  | _ =>
    match Number.int64? 10 text.toList with
    | some n => .int n
    | none =>
      match Number.real? text.toList with
      | some x => .real x
      | none => .text text

/-- The setting that a variable is. -/
def fromEnvironment? (entry : String × String) : Option (String × Value) :=
  let name := (Text.lower entry.1).toList
  if mark.toList.isPrefixOf name then
    some (String.ofList (name.drop mark.length), valueOf entry.2)
  else none

/-- Settings with those of the environment laid over them. -/
def withEnvironment (settings : List (String × Value)) (environment : List (String × String)) :
    List (String × Value) :=
  lay settings (environment.filterMap fromEnvironment?)

end Settings

end LightingDesk
