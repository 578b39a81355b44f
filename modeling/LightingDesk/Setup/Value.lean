import LightingDesk.Number.Binary64

/-!
# Values

What a configuration is made of, whatever it was written in: scalars, lists, and tables with
text keys.  A table that holds a key twice shows the later entry.

    what has been put under a key is found there                (find?_put)
-/

namespace LightingDesk

/-- A value in a configuration. -/
inductive Value
  | null
  | bool (b : Bool)
  | int (n : Int)
  | real (x : Binary64)
  | text (s : String)
  | list (items : List Value)
  | table (fields : List (String × Value))

namespace Value

instance : Inhabited Value := ⟨null⟩

/-- The entry of a table under a key. -/
def find? (fields : List (String × Value)) (key : String) : Option Value :=
  (fields.reverse.find? (·.1 == key)).map (·.2)

/-- A table with a value under a key, in place of what was there. -/
def put (fields : List (String × Value)) (key : String) (v : Value) : List (String × Value) :=
  fields.filter (·.1 != key) ++ [(key, v)]

theorem find?_put (fields : List (String × Value)) (key : String) (v : Value) :
    find? (put fields key v) key = some v := by
  simp [find?, put]

end Value

end LightingDesk
