import LightingDesk.Number.Read
import LightingDesk.Setup.Value

/-!
# Nodes

What a YAML document is made of.  A scalar that stands without quotes is given a type by
its spelling, or by a tag in front of it; any other scalar is text.  As a value, a node
has text keys only; a number or a truth value may stand for one.
-/

namespace LightingDesk.Yaml

/-- A node.  `faulty` is a scalar that does not fit its tag. -/
inductive Node
  | null
  | faulty
  | bool (b : Bool)
  | int (n : Int)
  | real (spelling : String)
  | text (s : String)
  | list (items : List Node)
  | map (entries : List (Node × Node))
deriving BEq

/-- What a tag says about a plain scalar: nothing it can be held to, or that it has one of the
types of the core schema. -/
inductive Tag
  | bool
  | int
  | real
  | null
  | other
deriving DecidableEq, Repr

namespace Node

/-- The spellings of the infinities and of what is no number. -/
def limits : List String :=
  [".inf", ".Inf", ".INF", "+.inf", "+.Inf", "+.INF", "-.inf", "-.Inf", "-.INF", ".nan", ".NaN",
    ".NAN"]

/-- Whether a spelling is that of a number with a point, an exponent, or without a bound. -/
def isReal (cs : List Char) : Bool :=
  String.ofList cs ∈ limits ∨ (cs.any Number.isDigit ∧ (Number.real? cs).isSome)

/-- A whole number in one of the notations that a plain scalar may use. -/
def int? : List Char → Option Int
  | '0' :: 'x' :: rest => Number.int64? 16 rest
  | '0' :: 'o' :: rest => Number.int64? 8 rest
  | '+' :: rest => Number.int64? 10 rest
  | cs => Number.int64? 10 cs

/-- The node of a plain scalar without a tag. -/
def ofPlain (cs : List Char) : Node :=
  match int? cs with
  | some n => .int n
  | none =>
    match String.ofList cs with
    | "" => .null
    | "~" => .null
    | "null" => .null
    | "true" => .bool true
    | "false" => .bool false
    | s => if isReal cs then .real s else .text s

/-- The node of a plain scalar with a tag. -/
def ofTagged (tag : Tag) (cs : List Char) : Node :=
  let s := String.ofList cs
  match tag with
  | .bool => if s = "true" then .bool true else if s = "false" then .bool false else .faulty
  | .int =>
    match Number.int64? 10 cs with
    | some n => .int n
    | none => .faulty
  | .real => if isReal cs then .real s else .faulty
  | .null => if s = "~" ∨ s = "null" then .null else .faulty
  | .other => .text s

/-- The node of a scalar. -/
def ofScalar (plain : Bool) (tag : Option Tag) (cs : List Char) : Node :=
  if plain then
    match tag with
    | some tag => ofTagged tag cs
    | none => ofPlain cs
  else .text (String.ofList cs)

/-- The text that a key stands for. -/
def key? : Node → Option String
  | text s => some s
  | int n => some (toString n)
  | bool b => some (if b then "true" else "false")
  | real s => some s
  | _ => none

mutual

/-- The value of a node.  There is none if a key stands for no text, or if a number has no
bound. -/
def value? : Node → Option Value
  | null => some .null
  | faulty => some .null
  | bool b => some (.bool b)
  | int n => some (.int n)
  | real s => (Number.real? s.toList).map .real
  | text s => some (.text s)
  | list items => (values? items).map .list
  | map entries => (fields? entries).map .table

/-- The values of nodes. -/
def values? : List Node → Option (List Value)
  | [] => some []
  | n :: rest =>
    match value? n, values? rest with
    | some v, some vs => some (v :: vs)
    | _, _ => none

/-- The fields of entries. -/
def fields? : List (Node × Node) → Option (List (String × Value))
  | [] => some []
  | (k, n) :: rest =>
    match key? k, value? n, fields? rest with
    | some k, some v, some vs => some ((k, v) :: vs)
    | _, _, _ => none

end

end Node

end LightingDesk.Yaml
