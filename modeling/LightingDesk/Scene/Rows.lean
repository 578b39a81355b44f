/-!
# Rows of bytes as text

A list of byte rows is written as nested brackets with commas and nothing else between
them: `[[0,1],[],[255]]`.  Reading takes blanks between the parts as well.  A number has
no sign, no leading zero and no point, and is at most 255; anything else is refused.
-/

namespace LightingDesk.Rows

/-! ## Writing -/

/-- Items in brackets, with commas between them. -/
def bracketed (items : List (List Char)) : List Char :=
  '[' :: (items.intersperse [',']).flatten ++ [']']

/-- The digits of a byte. -/
def digits (b : UInt8) : List Char := Nat.toDigits 10 b.toNat

/-- Rows as text. -/
def render (rows : List (List UInt8)) : String :=
  String.ofList (bracketed (rows.map fun row => bracketed (row.map digits)))

/-! ## Reading -/

/-- Where a reader stands. -/
inductive Spot
  | outside
  | listOpen
  | rowDue
  | rowOpen
  | numberDue
  | afterZero
  | inNumber (value : Nat)
  | afterNumber
  | afterRow
  | closed
deriving DecidableEq, Repr

/-- A reader: where it stands, the numbers of the row it is in and the finished rows, both
newest first. -/
structure Reader where
  spot : Spot
  row : List UInt8
  rows : List (List UInt8)
deriving DecidableEq, Repr

namespace Reader

/-- A reader in front of a text. -/
def start : Reader := ⟨.outside, [], []⟩

/-- Whether a character may stand between the parts. -/
def isBlank (c : Char) : Bool := c = ' ' ∨ c = '\t' ∨ c = '\n' ∨ c = '\r'

/-- The value of a digit. -/
def digit? (c : Char) : Option Nat := if c.isDigit then some (c.toNat - '0'.toNat) else none

/-- Finishes a number. -/
def keep (r : Reader) (value : Nat) : Reader := { r with row := value.toUInt8 :: r.row }

/-- Goes on to another spot. -/
def goTo (r : Reader) (spot : Spot) : Reader := { r with spot }

/-- Starts a number with a digit. -/
def begin? (r : Reader) (c : Char) : Option Reader :=
  match digit? c with
  | some 0 => some (r.goTo .afterZero)
  | some d => some (r.goTo (.inNumber d))
  | none => none

/-- What may follow a finished number. -/
def goOn? (r : Reader) (c : Char) : Option Reader :=
  if isBlank c then some (r.goTo .afterNumber)
  else if c = ',' then some (r.goTo .numberDue)
  else if c = ']' then some ⟨.afterRow, [], r.row.reverse :: r.rows⟩
  else none

/-- Reads one character. -/
def step (r : Reader) (c : Char) : Option Reader :=
  match r.spot with
  | .outside => if isBlank c then some r else if c = '[' then some (r.goTo .listOpen) else none
  | .listOpen =>
    if isBlank c then some r
    else if c = '[' then some (r.goTo .rowOpen)
    else if c = ']' then some (r.goTo .closed)
    else none
  | .rowDue => if isBlank c then some r else if c = '[' then some (r.goTo .rowOpen) else none
  | .rowOpen =>
    if isBlank c then some r
    else if c = ']' then some ⟨.afterRow, [], [] :: r.rows⟩
    else r.begin? c
  | .numberDue => if isBlank c then some r else r.begin? c
  | .afterZero => (r.keep 0).goOn? c
  | .inNumber value =>
    match digit? c with
    | some d => if value * 10 + d < 256 then some (r.goTo (.inNumber (value * 10 + d))) else none
    | none => (r.keep value).goOn? c
  | .afterNumber => r.goOn? c
  | .afterRow =>
    if isBlank c then some r
    else if c = ',' then some (r.goTo .rowDue)
    else if c = ']' then some (r.goTo .closed)
    else none
  | .closed => if isBlank c then some r else none

end Reader

/-- The rows that a text holds. -/
def read? (text : String) : Option (List (List UInt8)) :=
  match text.toList.foldlM Reader.step Reader.start with
  | some ⟨.closed, _, rows⟩ => some rows.reverse
  | _ => none

end LightingDesk.Rows
