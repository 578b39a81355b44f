import LightingDesk.Yaml.Mark

/-!
# Scalars

The five ways to write a scalar: plain, in single or double quotes, and as a literal or
folded block.  Where a scalar goes on over several lines, one line break is a space, and of
several the first is dropped.
-/

namespace LightingDesk.Yaml.Scalar

open Mark

/-- What `n` line breaks between words stand for. -/
def fold (n : Nat) : List Char := if n = 1 then [' '] else List.replicate (n - 1) '\n'

/-- A gap: its characters, if it stays on the line, or its line breaks folded. -/
def gapText (gap : List Mark) : List Char :=
  let n := (chars gap).count '\n'
  if n = 0 then chars gap else fold n

/-- The marks of a gap, and what follows it. -/
def gap (ms : List Mark) : List Mark × List Mark := ms.span fun m => isGap m.char

/-! ## Plain scalars -/

/-- Whether a plain scalar can begin here. -/
def plainBegins (flow : Bool) : List Mark → Bool
  | [] => false
  | m :: rest =>
    let next := !atGap rest ∧ !(flow ∧ (rest.head?.any fun n => isFlow n.char))
    match m.char with
    | '-' => next
    | '?' => !atGap rest
    | ':' => next
    | '|' => flow
    | '>' => flow
    | ',' | '[' | ']' | '\x7b' | '\x7d' | '#' | '&' | '*' | '!' | '\'' | '"' | '%' | '@' | '\x60' =>
      false
    | _ => !isGap m.char

/-- The characters up to a gap, a key's colon or, in a flow collection, a part of that. -/
def word (flow : Bool) : List Mark → List Char × List Mark
  | [] => ([], [])
  | m :: rest =>
    let stops := isGap m.char ∨ (flow ∧ isFlow m.char) ∨
      (m.char = ':' ∧ (atGap rest ∨ (flow ∧ rest.head?.any fun n => isFlow n.char)))
    if stops then ([], m :: rest)
    else
      let (cs, after) := word flow rest
      (m.char :: cs, after)

/-- The words of a plain scalar after the first.  Outside flow collections they stand to the right
of column `indent`. -/
def plainMore (flow : Bool) (indent : Int) (oneLine : Bool) (fuel : Nat) (ms : List Mark) :
    Option (List Char × List Mark) :=
  match fuel with
  | 0 => none
  | fuel + 1 =>
    let (space, rest) := gap ms
    let breaks := space.any fun m => m.char = '\n'
    let margin := space.reverse.takeWhile fun m => m.char ≠ '\n'
    let tabbed := margin.any fun m => m.char = '\t' ∧ (m.column : Int) ≤ indent
    let outside := breaks ∧ (oneLine ∨ atBoundary rest ∨ (!flow ∧ (columnOf rest : Int) ≤ indent))
    if space.isEmpty ∨ outside ∨ rest.isEmpty ∨ (rest.head?.any fun m => m.char = '#') then
      some ([], ms)
    else if breaks ∧ tabbed then none
    else
      match word flow rest with
      | ([], _) => some ([], ms)
      | (cs, after) =>
        (plainMore flow indent oneLine fuel after).map fun (more, last) =>
          (gapText space ++ cs ++ more, last)

/-- A plain scalar. -/
def plain (flow : Bool) (indent : Int) (oneLine : Bool) (ms : List Mark) :
    Option (List Char × List Mark) :=
  if plainBegins flow ms then
    match word flow ms with
    | ([], _) => none
    | (cs, rest) =>
      (plainMore flow indent oneLine (rest.length + 1) rest).map fun (more, last) =>
        (cs ++ more, last)
  else none

/-! ## Quoted scalars -/

/-- What a backslash and a character stand for, unless digits follow. -/
def escape? : Char → Option (List Char)
  | '0' => some ['\x00']
  | 'a' => some ['\x07']
  | 'b' => some ['\x08']
  | 't' => some ['\t']
  | '\t' => some ['\t']
  | 'n' => some ['\n']
  | 'v' => some ['\x0b']
  | 'f' => some ['\x0c']
  | 'r' => some ['\r']
  | 'e' => some ['\x1b']
  | ' ' => some [' ']
  | '"' => some ['"']
  | '/' => some ['/']
  | '\\' => some ['\\']
  | 'N' => some ['\x85']
  | '_' => some ['\xa0']
  | 'L' => some ['\u2028']
  | 'P' => some ['\u2029']
  | _ => none

/-- How many digits follow a backslash and a character. -/
def escapeDigits : Char → Nat
  | 'x' => 2
  | 'u' => 4
  | 'U' => 8
  | _ => 0

/-- The value of a hexadecimal digit. -/
def hexDigit? (c : Char) : Option Nat :=
  if '0' ≤ c ∧ c ≤ '9' then some (c.toNat - 48)
  else if 'a' ≤ c ∧ c ≤ 'f' then some (c.toNat - 87)
  else if 'A' ≤ c ∧ c ≤ 'F' then some (c.toNat - 55)
  else none

/-- The character with a number, if there is one. -/
def char? (n : Nat) : Option Char := if n.isValidChar then some (Char.ofNat n) else none

/-- The character that digits stand for. -/
def charOf? (digits : List Mark) : Option Char :=
  (digits.foldlM (fun n m => (hexDigit? m.char).map (n * 16 + ·)) 0).bind char?

/-- Whether a quoted scalar may go on here, at column `floor` or to the right of it. -/
def mayGoOn (floor : Int) (rest : List Mark) : Bool :=
  !atBoundary rest ∧ floor ≤ (columnOf rest : Int)

/-- What stands between double quotes, and what follows. -/
def double (floor : Int) (fuel : Nat) (ms : List Mark) : Option (List Char × List Mark) :=
  match fuel, ms with
  | 0, _ => none
  | _, [] => none
  | fuel + 1, m :: rest =>
    let go (cs : List Char) (rest : List Mark) : Option (List Char × List Mark) :=
      (double floor fuel rest).map fun (more, last) => (cs ++ more, last)
    if m.char = '"' then some ([], rest)
    else if m.char = '\\' then
      match rest with
      | [] => none
      | e :: after =>
        if e.char = '\n' then
          let (space, after) := gap after
          if mayGoOn floor after then go (List.replicate ((chars space).count '\n') '\n') after
          else none
        else
          let n := escapeDigits e.char
          if n = 0 then (escape? e.char).bind fun cs => go cs after
          else if after.length < n then none
          else (charOf? (after.take n)).bind fun c => go [c] (after.drop n)
    else if isGap m.char then
      let (space, after) := gap (m :: rest)
      if (space.any fun s => s.char = '\n') ∧ !mayGoOn floor after then none
      else go (gapText space) after
    else go [m.char] rest

/-- What stands between single quotes, and what follows; a quote inside is written twice. -/
def single (floor : Int) (fuel : Nat) (ms : List Mark) : Option (List Char × List Mark) :=
  match fuel, ms with
  | 0, _ => none
  | _, [] => none
  | fuel + 1, m :: rest =>
    let go (cs : List Char) (rest : List Mark) : Option (List Char × List Mark) :=
      (single floor fuel rest).map fun (more, last) => (cs ++ more, last)
    if m.char = '\'' then
      match rest with
      | n :: after => if n.char = '\'' then go ['\''] after else some ([], rest)
      | [] => some ([], rest)
    else if isGap m.char then
      let (space, after) := gap (m :: rest)
      if (space.any fun s => s.char = '\n') ∧ !mayGoOn floor after then none
      else go (gapText space) after
    else go [m.char] rest

/-- A scalar in quotes of either kind. -/
def quoted (floor : Int) : List Mark → Option (List Char × List Mark)
  | m :: rest =>
    if m.char = '"' then double floor (rest.length + 1) rest
    else if m.char = '\'' then single floor (rest.length + 1) rest
    else none
  | [] => none

/-! ## Block scalars -/

/-- Which line breaks at the end of a block count: none, one, or all. -/
inductive Chomp
  | strip
  | clip
  | keep
deriving DecidableEq, Repr

/-- The signs after the mark of a block: how its end is treated, and how far it is indented. -/
def header (chomp : Option Chomp) (step : Option Nat) :
    List Mark → Option (Chomp × Option Nat × List Mark)
  | m :: rest =>
    if (m.char = '+' ∨ m.char = '-') ∧ chomp.isNone then
      header (some (if m.char = '+' then .keep else .strip)) step rest
    else if '1' ≤ m.char ∧ m.char ≤ '9' ∧ step.isNone then
      header chomp (some (m.char.toNat - 48)) rest
    else some (chomp.getD .clip, step, m :: rest)
  | [] => some (chomp.getD .clip, step, [])

/-- The lines of a text; what follows the last break is a line if it is not empty. -/
def linesOf (ms : List Mark) : List (List Mark) :=
  ms.foldr (fun m lines =>
    if m.char = '\n' then [m] :: lines
    else
      match lines with
      | line :: more => (m :: line) :: more
      | [] => [[m]]) []

/-- How many spaces a line begins with. -/
def spacesOf (line : List Mark) : Nat := (line.takeWhile fun m => m.char = ' ').length

/-- Whether a line holds nothing but spaces. -/
def isEmptyLine (line : List Mark) : Bool := line.all fun m => m.char = ' ' ∨ m.char = '\n'

/-- Whether a line belongs to a block that is indented by `depth`. -/
def belongs (depth : Nat) (line : List Mark) : Bool :=
  (isEmptyLine line ∧ spacesOf line ≤ depth) ∨ (depth ≤ spacesOf line ∧ !atBoundary line)

/-- How far a block is indented: as far as its first line that is not empty, but further than
column `indent`. -/
def depthOf (indent : Int) (lines : List (List Mark)) : Nat :=
  let least := (max 0 (indent + 1)).toNat.max 1
  match lines.find? fun line => !isEmptyLine line with
  | some line => (spacesOf line).max least
  | none => (lines.map spacesOf).foldl max least

/-- Joins the lines of a block.  `ended` says whether a line with content has just ended, and
`pending` counts the empty lines since.  Lines that begin with a blank are not folded, and
neither are their neighbours. -/
def join (folded wasBlank ended : Bool) (pending : Nat) : List (List Char) → List Char × Bool × Nat
  | [] => ([], ended, pending)
  | line :: rest =>
    let body := line.filter (· ≠ '\n')
    let broken := line.contains '\n'
    if body.isEmpty then join folded wasBlank ended (if broken then pending + 1 else pending) rest
    else
      let blank := body.head?.any isSpace
      let breaks :=
        if !ended then List.replicate pending '\n'
        else if folded ∧ !wasBlank ∧ !blank then fold (pending + 1)
        else List.replicate (pending + 1) '\n'
      let (more, last) := join folded blank broken 0 rest
      (breaks ++ body ++ more, last)

/-- A literal or folded block, from behind its mark. -/
def block (folded : Bool) (indent : Int) (ms : List Mark) : Option (List Char × List Mark) :=
  match header none none ms with
  | none => none
  | some (chomp, step, rest) =>
    match lineEnd rest with
    | none => none
    | some rest =>
      let lines := linesOf (rest.drop 1)
      let depth := match step with
        | some n => (max 0 indent).toNat + n
        | none => depthOf indent lines
      let mine := lines.takeWhile (belongs depth)
      let after := lines.drop mine.length
      let texts := mine.map fun line => chars (line.drop (min depth (spacesOf line)))
      let tooDeep := step.isNone ∧
        (mine.takeWhile isEmptyLine).any fun line => depth < spacesOf line
      let (cs, ended, pending) := join folded false false 0 texts
      let cutOff := mine.getLast?.any fun line =>
        !(chars line).contains '\n' ∧ depth ≤ line.length
      let tail := match chomp with
        | .strip => 0
        | .clip => ended.toNat + cutOff.toNat
        | .keep => ended.toNat + cutOff.toNat + pending
      if tooDeep then none
      else some (cs ++ List.replicate tail '\n', after.flatten)

end LightingDesk.Yaml.Scalar
