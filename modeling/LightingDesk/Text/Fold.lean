/-!
# Words without case

Names that an operator types are compared with fixed words of small ASCII letters.  `lower`
gives a text its small letters as far as such a comparison can tell: a character whose
small form holds an ASCII letter gets that form, and any other character keeps a form
that no ASCII word contains.
-/

namespace LightingDesk.Text

/-- The small form of a character.  Beside A to Z, the Kelvin sign has the small form k, and
the capital I with a dot has i and a combining dot. -/
def lowerChar (c : Char) : List Char :=
  if 'A' ≤ c ∧ c ≤ 'Z' then [c.toLower]
  else if c = '\u212a' then ['k']
  else if c = '\u0130' then ['i', '\u0307']
  else [c]

/-- A text with small letters. -/
def lower (s : String) : String := String.ofList (s.toList.flatMap lowerChar)

end LightingDesk.Text
