/-!
# Marks

A document is read as a list of marks: each character with its column, and with whether
nothing but blanks stands before it on its line.  Line breaks of all three kinds are one
character.
-/

namespace LightingDesk.Yaml

/-- A character and its place on its line. -/
structure Mark where
  char : Char
  column : Nat
  leads : Bool
deriving DecidableEq, Repr

/-- Whether a character is a space or a tab. -/
def isSpace (c : Char) : Bool := c = ' ' ∨ c = '\t'

/-- Whether a character is a space, a tab or a line break. -/
def isGap (c : Char) : Bool := isSpace c ∨ c = '\n'

/-- Whether a character begins, ends or separates the parts of a flow collection. -/
def isFlow (c : Char) : Bool := c = ',' ∨ c = '[' ∨ c = ']' ∨ c = '\x7b' ∨ c = '\x7d'

namespace Mark

/-- Turns the three kinds of line breaks into one. -/
def breaks : List Char → List Char
  | '\r' :: '\n' :: rest => '\n' :: breaks rest
  | '\r' :: rest => '\n' :: breaks rest
  | c :: rest => c :: breaks rest
  | [] => []

/-- The marks of characters from a column on. -/
def annotate (column : Nat) (leads : Bool) : List Char → List Mark
  | [] => []
  | c :: rest =>
    ⟨c, column, leads⟩ ::
      (if c = '\n' then annotate 0 true rest else annotate (column + 1) (leads && isSpace c) rest)

/-- The marks of a text; a NUL character ends it. -/
def ofText (s : String) : List Mark :=
  annotate 0 true (breaks (s.toList.takeWhile (· ≠ '\x00')))

/-- The characters of marks. -/
def chars (ms : List Mark) : List Char := ms.map (·.char)

/-- The column of the next character; the end of a document counts as the start of a line. -/
def columnOf : List Mark → Nat
  | m :: _ => m.column
  | [] => 0

/-- Whether the next character is a gap, or there is none. -/
def atGap : List Mark → Bool
  | m :: _ => isGap m.char
  | [] => true

/-- Whether the next character ends its line, or there is none. -/
def atBreak : List Mark → Bool
  | m :: _ => m.char = '\n'
  | [] => true

/-- Whether three characters at the start of a line begin or end a document. -/
def atBoundary : List Mark → Bool
  | a :: b :: c :: rest =>
    a.column = 0 ∧ ((a.char = '-' ∧ b.char = '-' ∧ c.char = '-') ∨
      (a.char = '.' ∧ b.char = '.' ∧ c.char = '.')) ∧ atGap rest
  | _ => false

/-- Whether no content follows: the end, or the boundary of a document. -/
def atEnd (ms : List Mark) : Bool := ms.isEmpty ∨ atBoundary ms

/-- What follows the spaces and tabs. -/
def skipSpaces (ms : List Mark) : List Mark := ms.dropWhile fun m => isSpace m.char

/-- What follows up to the end of the line. -/
def skipLine (ms : List Mark) : List Mark := ms.dropWhile fun m => m.char ≠ '\n'

/-- Whether the rest of the line is blank or a comment. -/
def restIsBlank (ms : List Mark) : Bool :=
  match skipSpaces ms with
  | m :: _ => m.char = '\n' ∨ m.char = '#'
  | [] => true

/-- Goes on to the next content, over gaps and comments.  What belongs to a block stands at column
`floor` or to the right of it, and a tab does not take it there. -/
def skipFrom (floor : Int) (fuel : Nat) (ms : List Mark) : Option (List Mark) :=
  match fuel, ms with
  | 0, _ => none
  | _, [] => some []
  | fuel + 1, m :: rest =>
    if m.char = '\t' ∧ m.leads ∧ (m.column : Int) < floor ∧ !restIsBlank (m :: rest) then none
    else if isGap m.char then skipFrom floor fuel rest
    else if m.char = '#' then skipFrom floor fuel (skipLine rest)
    else some (m :: rest)

/-- Goes on to the next content. -/
def skip (floor : Int) (ms : List Mark) : Option (List Mark) := skipFrom floor (ms.length + 1) ms

/-- The end of a line behind content: gaps, and a comment if a gap stands before it. -/
def lineEnd (ms : List Mark) : Option (List Mark) :=
  let rest := skipSpaces ms
  match rest with
  | [] => some []
  | m :: _ =>
    if m.char = '\n' then some rest
    else if m.char = '#' ∧ rest.length < ms.length then some (skipLine rest)
    else none

/-- Whether what was read between two places stays on one line and is short enough for a key. -/
def isShort (before after : List Mark) : Bool :=
  let read := before.take (before.length - after.length)
  read.length ≤ 1024 ∧ !read.any fun m => m.char = '\n'

end Mark

end LightingDesk.Yaml
