/-!
# Addresses

Internet addresses of both kinds and the ports on them, as text.  An address of the short
kind is four numbers between points, none with a leading zero.  One of the long kind is
eight hexadecimal groups between colons, where two colons stand for a gap of zeros and the
last two groups may be written as a short address.  Writing leaves out the longest gap, and
of two that are equally long the first.
-/

namespace LightingDesk

/-- An internet address. -/
inductive Ip
  | v4 (a b c d : UInt8)
  | v6 (groups : Vector UInt16 8)
deriving DecidableEq, Repr

/-- Where datagrams go: an internet address, a port, and for some long addresses the number of
the network they belong to. -/
structure Address where
  ip : Ip
  port : UInt16
  zone : UInt32 := 0
deriving DecidableEq, Repr

/-- The port that both ends of the link use. -/
def linkPort : UInt16 := 6454

/-! ## Reading -/

namespace Reading

/-- The value of a digit in a base. -/
def digit? (base : Nat) (c : Char) : Option Nat :=
  let value :=
    if '0' ≤ c ∧ c ≤ '9' then some (c.toNat - 48)
    else if 'a' ≤ c ∧ c ≤ 'z' then some (c.toNat - 87)
    else if 'A' ≤ c ∧ c ≤ 'Z' then some (c.toNat - 55)
    else none
  value.filter (· < base)

/-- The digits at the start of a text, and what follows them. -/
def digits (base : Nat) : List Char → List Nat × List Char
  | [] => ([], [])
  | c :: rest =>
    match digit? base c with
    | some d =>
      let (ds, rest') := digits base rest
      (d :: ds, rest')
    | none => ([], c :: rest)

/-- The value of a list of digits, the highest first. -/
def value (base : Nat) (ds : List Nat) : Nat := ds.foldl (fun v d => v * base + d) 0

/-- A number that is smaller than `bound`. -/
def number (base bound : Nat) (cs : List Char) : Option (Nat × List Char) :=
  match digits base cs with
  | ([], _) => none
  | (ds, rest) => if value base ds < bound then some (value base ds, rest) else none

/-- A number of at most three digits that is smaller than 256 and has no leading zero. -/
def octet (cs : List Char) : Option (UInt8 × List Char) :=
  match digits 10 cs with
  | ([], _) => none
  | (ds, rest) =>
    if ds.length ≤ 3 ∧ value 10 ds < 256 ∧ ¬ (ds.head? = some 0 ∧ 1 < ds.length) then
      some ((value 10 ds).toUInt8, rest)
    else none

/-- One to four hexadecimal digits. -/
def group (cs : List Char) : Option (UInt16 × List Char) :=
  match digits 16 cs with
  | ([], _) => none
  | (ds, rest) => if ds.length ≤ 4 then some ((value 16 ds).toUInt16, rest) else none

/-- What follows a given character. -/
def after (mark : Char) : List Char → Option (List Char)
  | c :: rest => if c = mark then some rest else none
  | [] => none

/-- Four numbers between points. -/
def short (cs : List Char) : Option ((UInt8 × UInt8 × UInt8 × UInt8) × List Char) := do
  let (a, cs) ← octet cs
  let (b, cs) ← octet (← after '.' cs)
  let (c, cs) ← octet (← after '.' cs)
  let (d, cs) ← octet (← after '.' cs)
  return ((a, b, c, d), cs)

/-- Two bytes as one group. -/
def join (high low : UInt8) : UInt16 := (high.toNat * 256 + low.toNat).toUInt16

/-- As many groups as there are, but at most `room`, with colons between them.  The answer also
tells whether the last two were written as a short address, after which nothing can follow. -/
def groups : Nat → Bool → List Char → List UInt16 × Bool × List Char
  | 0, _, cs => ([], false, cs)
  | room + 1, isFirst, cs =>
    match if isFirst then some cs else after ':' cs with
    | none => ([], false, cs)
    | some body =>
      match if 1 ≤ room then short body else none with
      | some ((a, b, c, d), rest) => ([join a b, join c d], true, rest)
      | none =>
        match group body with
        | some (g, rest) =>
          let (gs, closed, rest') := groups room false rest
          (g :: gs, closed, rest')
        | none => ([], false, cs)

/-- The address of eight groups. -/
def ofGroups (gs : List UInt16) : Option Ip :=
  if h : gs.length = 8 then some (.v6 ⟨gs.toArray, by simp [h]⟩) else none

/-- Eight groups, or fewer around a gap. -/
def long (cs : List Char) : Option (Ip × List Char) :=
  match groups 8 true cs with
  | (head, closed, rest) =>
    if head.length = 8 then (ofGroups head).map (·, rest)
    else if closed then none
    else do
      let rest ← after ':' (← after ':' rest)
      let (tail, _, rest) := groups (7 - head.length) true rest
      let zeros := List.replicate (8 - head.length - tail.length) 0
      return (← ofGroups (head ++ zeros ++ tail), rest)

/-- A port after a colon. -/
def portAfter (cs : List Char) : Option (UInt16 × List Char) := do
  let (n, rest) ← number 10 65536 (← after ':' cs)
  return (n.toUInt16, rest)

/-- The number of a network after a percent sign; none is 0. -/
def zoneAfter (cs : List Char) : Option (UInt32 × List Char) :=
  match after '%' cs with
  | some rest => (number 10 4294967296 rest).map fun (n, rest) => (n.toUInt32, rest)
  | none => some (0, cs)

/-- What a reader finds in a whole text. -/
def whole {α : Type} (read : List Char → Option (α × List Char)) (text : String) : Option α :=
  match read text.toList with
  | some (a, []) => some a
  | _ => none

end Reading

open Reading

/-- Reads an internet address. -/
def Ip.parse? (text : String) : Option Ip :=
  (whole short text).map (fun (a, b, c, d) => Ip.v4 a b c d) <|> whole long text

/-- Reads an internet address with a port; a long one stands in brackets. -/
def Address.parse? (text : String) : Option Address :=
  let near (cs : List Char) : Option (Address × List Char) := do
    let ((a, b, c, d), cs) ← short cs
    let (port, cs) ← portAfter cs
    return (⟨.v4 a b c d, port, 0⟩, cs)
  let far (cs : List Char) : Option (Address × List Char) := do
    let (ip, cs) ← long (← after '[' cs)
    let (zone, cs) ← zoneAfter cs
    let (port, cs) ← portAfter (← after ']' cs)
    return (⟨ip, port, zone⟩, cs)
  whole near text <|> whole far text

/-! ## Writing -/

/-- A number in lower-case hexadecimal digits. -/
def hexText (n : Nat) : String := String.ofList (Nat.toDigits 16 n)

/-- Where the longest gap of at least two zeros begins, and how long it is. -/
def longestGap (gs : List UInt16) : Option (Nat × Nat) :=
  [8, 7, 6, 5, 4, 3, 2].findSome? fun length =>
    ((List.range (9 - length)).find? fun start =>
      ((gs.drop start).take length).all (· = 0)).map (·, length)

/-- Groups with colons between them. -/
def colonText (gs : List UInt16) : String :=
  ":".intercalate (gs.map fun g => hexText g.toNat)

/-- Writes an internet address. -/
def Ip.text : Ip → String
  | .v4 a b c d => s!"{a.toNat}.{b.toNat}.{c.toNat}.{d.toNat}"
  | .v6 groups =>
    match groups.toList with
    | [0, 0, 0, 0, 0, 0xffff, g, h] =>
      s!"::ffff:{g.toNat / 256}.{g.toNat % 256}.{h.toNat / 256}.{h.toNat % 256}"
    | gs =>
      match longestGap gs with
      | some (start, length) =>
        colonText (gs.take start) ++ "::" ++ colonText (gs.drop (start + length))
      | none => colonText gs

/-- Writes an address with its port. -/
def Address.text (a : Address) : String :=
  match a.ip with
  | .v4 _ _ _ _ => s!"{a.ip.text}:{a.port.toNat}"
  | .v6 _ =>
    let zone := if a.zone = 0 then "" else s!"%{a.zone.toNat}"
    s!"[{a.ip.text}{zone}]:{a.port.toNat}"

end LightingDesk
