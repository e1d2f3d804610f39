import HaskellTags.Text.Blank
import HaskellTags.Text.Digit

/-!
# Numerals

The characters of a number in ASCII.  A number may be written with the digits
of any script and stand between blanks.
-/

namespace HaskellTags
namespace Text

/-- A character of a number in ASCII: a digit of any script is a digit, and a
blank outside ASCII is a space. -/
def numeralChar (c : Char) : Char :=
  if c.toNat < 127 then c
  else if isBlank c then ' '
  else
    match digitValue? c with
    | some n => Char.ofNat ('0'.toNat + n)
    | none => c

/-- Whether a character may stand around a number. -/
def isNumeralBlank (c : Char) : Bool :=
  (9 ≤ c.toNat && c.toNat ≤ 13) || c == ' '

/-- The characters of a number in ASCII, without the blanks around it. -/
def numeralChars (cs : List Char) : List Char :=
  trimEnds isNumeralBlank (cs.map numeralChar)

end Text
end HaskellTags
