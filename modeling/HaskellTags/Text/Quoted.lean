import HaskellTags.Text.Printable
import HaskellTags.Text.Utf8

/-!
# Quoted text

How a text is shown inside a message: in single quotes, or in double quotes if
it holds a single quote and no double one, with escapes for the quote in use,
the backslash and every character that is not printable.
-/

namespace HaskellTags
namespace Text

/-- The last `width` hexadecimal digits of a number. -/
def hexDigits : Nat → Nat → List Char
  | 0, _ => []
  | width + 1, n => hexDigits width (n / 16) ++ [Nat.digitChar (n % 16)]

/-- The quote to put around characters. -/
def quoteFor (cs : List Char) : Char :=
  if cs.contains '\'' && !cs.contains '"' then '"' else '\''

/-- The escape of a character that has a letter of its own. -/
def letterEscape : Char → Option (List Char)
  | '\n' => some ['\\', 'n']
  | '\r' => some ['\\', 'r']
  | '\t' => some ['\\', 't']
  | '\\' => some ['\\', '\\']
  | _ => none

/-- The shortest numeric escape of a character. -/
def numericEscape (c : Char) : List Char :=
  let n := c.toNat
  if n < 0x100 then '\\' :: 'x' :: hexDigits 2 n
  else if n < 0x10000 then '\\' :: 'u' :: hexDigits 4 n
  else '\\' :: 'U' :: hexDigits 8 n

/-- A character between quotes. -/
def quotedChar (quote c : Char) : List Char :=
  if c = quote then ['\\', c]
  else
    match letterEscape c with
    | some escape => escape
    | none => if isPrintable c then [c] else numericEscape c

/-- A text in quotes. -/
def quoted (s : String) : String :=
  let cs := s.toList
  let quote := quoteFor cs
  String.ofList (quote :: cs.flatMap (quotedChar quote) ++ [quote])

/-- Octets in quotes, each shown as its ASCII character or an escape. -/
def quotedOctets (octets : Octets) : String :=
  let cs := octets.map fun octet => Char.ofNat octet.toNat
  let quote := quoteFor cs
  let shown := fun c : Char =>
    if c = quote then ['\\', c]
    else
      match letterEscape c with
      | some escape => escape
      | none =>
        if 0x20 ≤ c.toNat && c.toNat < 0x7F then [c] else '\\' :: 'x' :: hexDigits 2 c.toNat
  String.ofList ('b' :: quote :: cs.flatMap shown ++ [quote])

end Text
end HaskellTags
