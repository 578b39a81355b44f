/-!
# UTF-8

Text as bytes.  A character takes one to four bytes; its first byte says how many follow
and between which bounds the second lies.  `scan` reads a byte string from left to right:
each well-formed character as itself, and each longest part that begins a character but
does not finish it, or begins none, as a gap.
-/

namespace LightingDesk.Text.Utf8

/-- What a first byte announces: a character by itself, or the leading bits of a character, the
number of bytes that follow and the bounds of the first of them. -/
inductive Lead
  | single
  | leads (bits more low high : Nat)
  | stray
deriving DecidableEq, Repr

/-- What a byte announces in front of a character. -/
def lead (b : Nat) : Lead :=
  if b < 0x80 then .single
  else if b < 0xc2 then .stray
  else if b < 0xe0 then .leads (b - 0xc0) 1 0x80 0xbf
  else if b = 0xe0 then .leads 0 2 0xa0 0xbf
  else if b = 0xed then .leads 0xd 2 0x80 0x9f
  else if b < 0xf0 then .leads (b - 0xe0) 2 0x80 0xbf
  else if b = 0xf0 then .leads 0 3 0x90 0xbf
  else if b < 0xf4 then .leads (b - 0xf0) 3 0x80 0xbf
  else if b = 0xf4 then .leads 4 3 0x80 0x8f
  else .stray

/-- The bytes, at most `n`, that can follow a first byte: the first of them between the given
bounds and the others between 0x80 and 0xbf. -/
def tails : Nat → Nat → Nat → List UInt8 → List Nat
  | 0, _, _, _ => []
  | _, _, _, [] => []
  | n + 1, low, high, b :: rest =>
    if low ≤ b.toNat ∧ b.toNat ≤ high then b.toNat :: tails n 0x80 0xbf rest else []

/-- The characters of a byte string, and nothing for each gap. -/
def scan : List UInt8 → List (Option Char)
  | [] => []
  | b :: rest =>
    match lead b.toNat with
    | .single => some (Char.ofNat b.toNat) :: scan rest
    | .stray => none :: scan rest
    | .leads bits more low high =>
      let found := tails more low high rest
      if found.length = more then
        some (Char.ofNat (found.foldl (fun v t => v * 64 + (t - 0x80)) bits)) ::
          scan (rest.drop more)
      else none :: scan (rest.drop found.length)
termination_by bs => bs.length
decreasing_by all_goals (simp only [List.length_cons, List.length_drop]; omega)

/-- The text of a byte string, with U+FFFD for each gap. -/
def decodeLossy (bytes : List UInt8) : String :=
  String.ofList ((scan bytes).map (·.getD '\ufffd'))

/-- The text of a byte string without gaps. -/
def decode? (bytes : List UInt8) : Option String :=
  ((scan bytes).mapM id).map String.ofList

/-- The bytes of a character. -/
def encodeChar (c : Char) : List UInt8 :=
  let v := c.toNat
  if v < 0x80 then [v.toUInt8]
  else if v < 0x800 then [(0xc0 + v / 64).toUInt8, (0x80 + v % 64).toUInt8]
  else if v < 0x10000 then
    [(0xe0 + v / 4096).toUInt8, (0x80 + v / 64 % 64).toUInt8, (0x80 + v % 64).toUInt8]
  else
    [(0xf0 + v / 262144).toUInt8, (0x80 + v / 4096 % 64).toUInt8, (0x80 + v / 64 % 64).toUInt8,
      (0x80 + v % 64).toUInt8]

/-- The bytes of a text. -/
def encode (s : String) : List UInt8 := s.toList.flatMap encodeChar

end LightingDesk.Text.Utf8
