import LightingDesk.Number.Read
import LightingDesk.Setup.Value

/-!
# JSON

Reads a text that holds one JSON value.  Of an object's members with one name the last
counts.  A whole number too large for 64 bits is read as a number with an exponent, and a
number too large for that is refused.  Values may be nested 127 deep.
-/

namespace LightingDesk.Json

/-- What follows the blanks. -/
def skip (cs : List Char) : List Char :=
  cs.dropWhile fun c => c = ' ' ∨ c = '\n' ∨ c = '\t' ∨ c = '\r'

/-- The value of a hexadecimal digit. -/
def hexDigit? (c : Char) : Option Nat := Number.digits? 16 [c]

/-- The value of four hexadecimal digits, and what follows them. -/
def unit? : List Char → Option (Nat × List Char)
  | a :: b :: c :: d :: rest => (Number.digits? 16 [a, b, c, d]).map (·, rest)
  | _ => none

/-- The character that an escape with digits stands for; two halves of a pair stand for one. -/
def wide? (cs : List Char) : Option (Char × List Char) :=
  match unit? cs with
  | none => none
  | some (high, rest) =>
    if 0xd800 ≤ high ∧ high < 0xdc00 then
      match rest with
      | '\\' :: 'u' :: more =>
        match unit? more with
        | some (low, after) =>
          if 0xdc00 ≤ low ∧ low < 0xe000 then
            some (Char.ofNat (0x10000 + (high - 0xd800) * 0x400 + (low - 0xdc00)), after)
          else none
        | none => none
      | _ => none
    else if 0xdc00 ≤ high ∧ high < 0xe000 then none
    else some (Char.ofNat high, rest)

/-- What a backslash and a character stand for. -/
def escape? : Char → Option Char
  | '"' => some '"'
  | '\\' => some '\\'
  | '/' => some '/'
  | 'b' => some '\x08'
  | 'f' => some '\x0c'
  | 'n' => some '\n'
  | 'r' => some '\r'
  | 't' => some '\t'
  | _ => none

/-- The characters up to a closing quote, and what follows it. -/
def string? : Nat → List Char → Option (List Char × List Char)
  | 0, _ => none
  | _, [] => none
  | fuel + 1, c :: rest =>
    let go (c : Char) (rest : List Char) : Option (List Char × List Char) :=
      (string? fuel rest).map fun (more, last) => (c :: more, last)
    if c = '"' then some ([], rest)
    else if c.toNat < 0x20 then none
    else if c = '\\' then
      match rest with
      | 'u' :: digits => (wide? digits).bind fun (c, after) => go c after
      | e :: after => (escape? e).bind fun c => go c after
      | [] => none
    else go c rest

/-- Digits without a leading zero. -/
def isWhole (ds : List Char) : Bool := !ds.isEmpty ∧ (ds.length = 1 ∨ ds.head? ≠ some '0')

/-- The number at the start of a text, and what follows it. -/
def number? (cs : List Char) : Option (Value × List Char) :=
  let (negative, body) := match cs with
    | '-' :: rest => (true, rest)
    | _ => (false, cs)
  let (whole, rest) := body.span Number.isDigit
  let (part, rest) := match rest with
    | '.' :: more =>
      let (ds, after) := more.span Number.isDigit
      (some ds, after)
    | _ => (none, rest)
  let (power, rest) := match rest with
    | e :: more =>
      if e = 'e' ∨ e = 'E' then
        let (sign, more) := match more with
          | '+' :: more => (['+'], more)
          | '-' :: more => (['-'], more)
          | _ => ([], more)
        let (ds, after) := more.span Number.isDigit
        (some (sign, ds), after)
      else (none, rest)
    | [] => (none, rest)
  let proper := isWhole whole ∧ part ≠ some [] ∧ !(power.any fun p => p.2.isEmpty)
  if !proper then none
  else
    let plain := part.isNone ∧ power.isNone ∧ !(negative ∧ whole = ['0'])
    let signed := if negative then '-' :: whole else whole
    match if plain then Number.int64? 10 signed else none with
    | some n => some (.int n, rest)
    | none =>
      let fraction := (part.map ('.' :: ·)).getD []
      let spelling := whole ++ fraction ++ (power.map fun p => 'e' :: (p.1 ++ p.2)).getD []
      match Number.decimal? negative spelling with
      | some (.finite s m q) => some (.real (.finite s m q), rest)
      | _ => none

mutual

/-- The value at the start of a text, and what follows it.  `depth` is how deep it may nest. -/
def value? (depth : Nat) : Nat → List Char → Option (Value × List Char)
  | 0, _ => none
  | fuel + 1, cs =>
    match skip cs with
    | 'n' :: 'u' :: 'l' :: 'l' :: rest => some (.null, rest)
    | 't' :: 'r' :: 'u' :: 'e' :: rest => some (.bool true, rest)
    | 'f' :: 'a' :: 'l' :: 's' :: 'e' :: rest => some (.bool false, rest)
    | '"' :: rest =>
      (string? (rest.length + 1) rest).map fun (s, rest) => (.text (String.ofList s), rest)
    | '[' :: rest =>
      if depth = 0 then none
      else
        match skip rest with
        | ']' :: rest => some (.list [], rest)
        | rest => (items? (depth - 1) [] fuel rest).map fun (vs, rest) => (.list vs, rest)
    | '\x7b' :: rest =>
      if depth = 0 then none
      else
        match skip rest with
        | '\x7d' :: rest => some (.table [], rest)
        | rest => (members? (depth - 1) [] fuel rest).map fun (fs, rest) => (.table fs, rest)
    | rest => number? rest

/-- The items of an array, from the next one on. -/
def items? (depth : Nat) (items : List Value) : Nat → List Char → Option (List Value × List Char)
  | 0, _ => none
  | fuel + 1, cs =>
    match value? depth fuel cs with
    | none => none
    | some (v, rest) =>
      match skip rest with
      | ',' :: rest => items? depth (items ++ [v]) fuel rest
      | ']' :: rest => some (items ++ [v], rest)
      | _ => none

/-- The members of an object, from the next one on. -/
def members? (depth : Nat) (fields : List (String × Value)) :
    Nat → List Char → Option (List (String × Value) × List Char)
  | 0, _ => none
  | fuel + 1, cs =>
    match skip cs with
    | '"' :: rest =>
      match string? (rest.length + 1) rest with
      | none => none
      | some (key, rest) =>
        match skip rest with
        | ':' :: rest =>
          match value? depth fuel rest with
          | none => none
          | some (v, rest) =>
            match skip rest with
            | ',' :: rest => members? depth (fields ++ [(String.ofList key, v)]) fuel rest
            | '\x7d' :: rest => some (fields ++ [(String.ofList key, v)], rest)
            | _ => none
        | _ => none
    | _ => none

end

/-- Reads a text that holds one value. -/
def read? (text : String) : Option Value :=
  match value? 127 (2 * text.length + 2) text.toList with
  | some (v, rest) => if (skip rest).isEmpty then some v else none
  | none => none

end LightingDesk.Json
