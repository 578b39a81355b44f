import LightingDesk.Yaml.Node

/-!
# Writing text

How a text is written in a block of YAML so that it is read as that text.  It stands as it is
where it can.  It is put between single quotes if it would be taken for something else or holds
the marks of the format, between double quotes if it holds what cannot be written as it is, and on
lines of its own if it has several.
-/

namespace LightingDesk.Yaml.Written

/-! ## What a text holds -/

/-- Whether a character ends a line. -/
def endsLine (c : Char) : Bool :=
  c = '\n' ∨ c = '\r' ∨ c = '\u0085' ∨ c = '\u2028' ∨ c = '\u2029'

/-- Whether a word ends before a character; it also ends with the text. -/
def separates : Option Char → Bool
  | none => true
  | some c => c = ' ' ∨ c = '\t' ∨ c = '\x00' ∨ endsLine c

/-- Whether a character can be written as it is. -/
def isPrintable (c : Char) : Bool :=
  let n := c.toNat
  n = 0x0a ∨ (0x20 ≤ n ∧ n ≤ 0x7e) ∨ (0xa0 ≤ n ∧ n ≠ 0xfeff ∧ n ≠ 0xfffe ∧ n ≠ 0xffff)

/-- The characters that mean something at the start of a text. -/
def marks : List Char :=
  ['#', ',', '[', ']', '\x7b', '\x7d', '&', '*', '!', '|', '>', '\'', '"', '%', '@', '\x60']

/-- Whether a text, behind the character `before`, holds marks of the format. -/
def isMarked (before : Option Char) : List Char → Bool
  | [] => false
  | c :: rest =>
    let alone := separates rest.head?
    let here : Bool := match before with
      | none => c ∈ marks ∨ ((c = '?' ∨ c = ':' ∨ c = '-') ∧ alone)
      | some b => (c = ':' ∧ alone) ∨ (c = '#' ∧ separates (some b))
    here || isMarked (some c) rest

/-- Whether a line begins like the mark between two documents. -/
def isDivider (cs : List Char) : Bool :=
  ['-', '-', '-'].isPrefixOf cs ∨ ['.', '.', '.'].isPrefixOf cs

/-- Whether two characters that satisfy `p` and `q` stand side by side. -/
def meets (p q : Char → Bool) : List Char → Bool
  | c :: d :: rest => (p c ∧ q d) ∨ meets p q (d :: rest)
  | _ => false

/-- Whether a text begins or ends with a space or with the end of a line. -/
def isRagged (cs : List Char) : Bool :=
  let loose (c : Option Char) : Bool := c.any fun c => c = ' ' ∨ endsLine c
  loose cs.head? ∨ loose cs.getLast?

/-! ## What a text would be read as -/

/-- Words that mean nothing, or a truth value in some version of the format. -/
def words : List String :=
  ["", "~", "null", "Null", "NULL", "true", "True", "TRUE", "false", "False", "FALSE", "y", "Y",
    "yes", "Yes", "YES", "n", "N", "no", "No", "NO", "on", "On", "ON", "off", "Off", "OFF"]

/-- Whether a text is a number in a base other than ten. -/
def isBased (cs : List Char) : Bool :=
  let (negative, rest) := Number.sign cs
  let digits := match rest with
    | '0' :: 'x' :: body => Number.digits? 16 body
    | '0' :: 'o' :: body => Number.digits? 8 body
    | '0' :: 'b' :: body => Number.digits? 2 body
    | _ => none
  digits.any fun n => if negative then n ≤ Number.power 2 127 else n < Number.power 2 128

/-- Whether a text is a decimal number. -/
def isDecimal (cs : List Char) : Bool :=
  match Number.real? cs with
  | some (.finite _ _ _) => true
  | _ => false

/-- Whether a text would be read as something else. -/
def isOther (s : String) : Bool :=
  s ∈ words ∨ s ∈ Node.limits ∨ isBased s.toList ∨ isDecimal s.toList

/-! ## Writing -/

/-- A way to write a text. -/
inductive Style
  | plain
  | single
  | double
  | literal
deriving DecidableEq, Repr

/-- The way to write a text. -/
def style (s : String) : Style :=
  let cs := s.toList
  let strange := cs.any (!isPrintable ·) ∨ meets (· = ' ') endsLine cs
  if cs.contains '\n' then
    if strange ∨ cs.getLast? = some ' ' then .double else .literal
  else if strange ∨ meets endsLine (· = ' ') cs then .double
  else if isOther s ∨ isRagged cs ∨ cs.any endsLine ∨ isMarked none cs ∨ isDivider cs then .single
  else .plain

/-- The inside of a text between single quotes. -/
def single : List Char → List Char
  | [] => []
  | c :: rest => if c = '\'' then '\'' :: '\'' :: single rest else c :: single rest

/-- A number in hexadecimal, with at least `width` digits. -/
def hexadecimal (width n : Nat) : List Char :=
  let digits := (Nat.toDigits 16 n).map Char.toUpper
  List.replicate (width - digits.length) '0' ++ digits

/-- A character between double quotes. -/
def double (c : Char) : List Char :=
  let n := c.toNat
  if c = '\x00' then ['\\', '0']
  else if c = '\x07' then ['\\', 'a']
  else if c = '\x08' then ['\\', 'b']
  else if c = '\t' then ['\\', 't']
  else if c = '\n' then ['\\', 'n']
  else if c = '\x0b' then ['\\', 'v']
  else if c = '\x0c' then ['\\', 'f']
  else if c = '\r' then ['\\', 'r']
  else if c = '\x1b' then ['\\', 'e']
  else if c = '"' then ['\\', '"']
  else if c = '\\' then ['\\', '\\']
  else if c = '\u0085' then ['\\', 'N']
  else if c = '\u2028' then ['\\', 'L']
  else if c = '\u2029' then ['\\', 'P']
  else if isPrintable c then [c]
  else if n < 0x100 then '\\' :: 'x' :: hexadecimal 2 n
  else '\\' :: 'u' :: hexadecimal 4 n

/-- What stands behind the bar in front of a text on lines of its own: how far it is indented, if
that cannot be seen, and what becomes of the ends of its lines. -/
def header (cs : List Char) : String :=
  let indentation := if cs.head?.any fun c => c = ' ' ∨ endsLine c then "2" else ""
  let closing := match cs.reverse with
    | [] => "-"
    | [c] => if endsLine c then "+" else "-"
    | c :: d :: _ => if endsLine c then (if endsLine d then "+" else "") else "-"
  indentation ++ closing

/-- The lines of a text, each without its end. -/
def linesOf (s : String) : List String :=
  let pieces := s.splitOn "\n"
  if pieces.getLast? = some "" then pieces.dropLast else pieces

/-- The lines that a text is written on. -/
def write (s : String) : List String :=
  match style s with
  | .plain => [s]
  | .single => [String.ofList ('\'' :: single s.toList ++ ['\''])]
  | .double => [String.ofList ('"' :: s.toList.flatMap double ++ ['"'])]
  | .literal => ("|" ++ header s.toList) :: linesOf s

/-- Lines with `lead` in front of the first and two spaces in front of the others. -/
def behind (lead : String) : List String → List String
  | [] => [lead]
  | first :: rest =>
    (lead ++ first) :: rest.map fun line => if line.isEmpty then line else "  " ++ line

end LightingDesk.Yaml.Written
