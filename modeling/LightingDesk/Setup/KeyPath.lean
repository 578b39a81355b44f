import LightingDesk.Number.Read
import LightingDesk.Setup.Value

/-!
# Key paths

A setting is named by the path to it: the key of a table at the root, and then keys behind points
and places in square brackets, such as `fixtures[0].name`.  A key is made of ASCII letters,
digits, lines and hyphens; a text that is no path names a key of the root as it stands.  A place
below zero counts from the end of a list.  What stands in the way of a new setting gives way to
it, but a table that is set is laid over the one that is there.

    a plain setting is found where it was put                   (find?_assign)
-/

namespace LightingDesk

/-- A step from a value into one of its parts. -/
inductive KeyStep
  | key (key : String)
  | place (index : Int)
deriving DecidableEq, Repr

/-- The key of a table and the steps from there. -/
structure KeyPath where
  root : String
  steps : List KeyStep
deriving DecidableEq, Repr

namespace KeyPath

/-- Whether a character can be in a key. -/
def isKeyChar (c : Char) : Bool := c.isAlphanum ∨ c = '_' ∨ c = '-'

/-- A key at the start of a text. -/
def key? (cs : List Char) : Option (String × List Char) :=
  match cs.takeWhile isKeyChar with
  | [] => none
  | key => some (String.ofList key, cs.dropWhile isKeyChar)

/-- Whether a character can stand around the place in brackets. -/
def isSpace (c : Char) : Bool := c = ' ' ∨ c = '\t'

/-- A place and the bracket that closes it. -/
def index? (cs : List Char) : Option (Int × List Char) :=
  let (negative, body) := match cs.dropWhile isSpace with
    | '-' :: rest => (true, rest)
    | rest => (false, rest)
  let digits := body.takeWhile Number.isDigit
  match (body.dropWhile Number.isDigit).dropWhile isSpace with
  | ']' :: rest =>
    (Number.int64? 10 (if negative then '-' :: digits else digits)).map (·, rest)
  | _ => none

/-- Steps up to the end of a text, with fuel for each of them. -/
def steps? : Nat → List Char → Option (List KeyStep)
  | _, [] => some []
  | fuel + 1, '.' :: rest =>
    match key? rest with
    | some (key, rest) => (steps? fuel rest).map (.key key :: ·)
    | none => none
  | fuel + 1, '[' :: rest =>
    match index? rest with
    | some (i, rest) => (steps? fuel rest).map (.place i :: ·)
    | none => none
  | _, _ => none

/-- The path that a text is. -/
def read? (s : String) : Option KeyPath :=
  match key? s.toList with
  | some (root, rest) => (steps? rest.length rest).map (⟨root, ·⟩)
  | none => none

/-- The path that a text names. -/
def ofText (s : String) : KeyPath := (read? s).getD ⟨s, []⟩

end KeyPath

namespace Value

/-- The fields of a table; any other value has none. -/
def fields : Value → List (String × Value)
  | table fields => fields
  | _ => []

/-- The items of a list; any other value has none. -/
def items : Value → List Value
  | list items => items
  | _ => []

mutual

/-- A value laid over another: a table key by key, anything else in its place. -/
def cover (below : Value) : Value → Value
  | table fields => table (coverAll below.fields fields)
  | v => v

/-- Fields laid over those of a table. -/
def coverAll (below : List (String × Value)) : List (String × Value) → List (String × Value)
  | [] => below
  | (key, v) :: rest => coverAll (put below key (cover ((find? below key).getD null) v)) rest

end

/-- Where a place is in a list with room made for it: one that lies before the start moves the
list back, and one behind the end makes it longer. -/
def roomFor (items : List Value) (index : Int) : Nat × List Value :=
  if 0 ≤ index then
    (index.toNat, items ++ List.replicate (index.toNat + 1 - items.length) null)
  else if index.natAbs ≤ items.length then (items.length - index.natAbs, items)
  else (0, List.replicate (index.natAbs - items.length) null ++ items)

/-- Lays a value over the one at the end of a path. -/
def assignAt (v : Value) : List KeyStep → Value → Value
  | [], below => cover below v
  | .key key :: steps, below =>
    table (put below.fields key (assignAt v steps ((find? below.fields key).getD null)))
  | .place index :: steps, below =>
    let (i, items) := roomFor below.items index
    list (items.modify i (assignAt v steps))

/-- Sets what a path from the root leads to. -/
def assign (root : List (String × Value)) (path : KeyPath) (v : Value) : List (String × Value) :=
  put root path.root (assignAt v path.steps ((find? root path.root).getD null))

theorem cover_of_ne_table (below v : Value) (h : ∀ fields, v ≠ table fields) :
    cover below v = v := by
  cases v with
  | table fields => exact absurd rfl (h fields)
  | _ => rw [cover]; simp

theorem find?_assign (root : List (String × Value)) (key : String) (v : Value)
    (h : ∀ fields, v ≠ table fields) : find? (assign root ⟨key, []⟩ v) key = some v := by
  rw [assign, find?_put, assignAt, cover_of_ne_table _ v h]

end Value

end LightingDesk
