/-!
# Places in a YAML text

The classes of characters that YAML tells apart, and a cursor that knows its
line and column.
-/

namespace HaskellTags
namespace Yaml

/-- What a cursor shows past the end of the text. -/
def endMark : Char := '\x00'

/-- Whether a character ends a line. -/
def isBreak (c : Char) : Bool :=
  c == '\n' || c == '\r' || c.toNat == 0x85 || c.toNat == 0x2028 || c.toNat == 0x2029

/-- Whether a character ends a line or the text. -/
def endsLine (c : Char) : Bool :=
  isBreak c || c == endMark

/-- Whether a character is a space or ends a line or the text. -/
def endsWord (c : Char) : Bool :=
  c == ' ' || endsLine c

/-- Whether a character separates tokens. -/
def separates (c : Char) : Bool :=
  c == '\t' || endsWord c

/-- Whether a character may stand in the name of an anchor. -/
def isNameChar (c : Char) : Bool :=
  c.isAlphanum || c == '-' || c == '_'

/-- Whether a character may stand in a YAML text. -/
def isAllowed (c : Char) : Bool :=
  let n := c.toNat
  n == 9 || n == 10 || n == 13 || (0x20 ≤ n && n ≤ 0x7E) || n == 0x85
    || (0xA0 ≤ n && n ≤ 0xFFFD) || 0x10000 ≤ n

/-- The mark that may stand before a text. -/
def byteOrderMark : Char := Char.ofNat 0xFEFF

/-- A place in a text. -/
structure Cursor where
  rest : List Char
  index : Nat
  line : Nat
  column : Nat

namespace Cursor

/-- The start of a text. -/
def start (text : List Char) : Cursor := ⟨text, 0, 0, 0⟩

/-- The character some places ahead. -/
def peek (c : Cursor) (ahead : Nat) : Char :=
  c.rest.getD ahead endMark

/-- The character here. -/
def here (c : Cursor) : Char :=
  c.rest.headD endMark

/-- The place one character on. -/
def next (c : Cursor) : Cursor :=
  match c.rest with
  | [] => c
  | ch :: rest =>
    if isBreak ch && !(ch == '\r' && rest.head? == some '\n') then
      ⟨rest, c.index + 1, c.line + 1, 0⟩
    else ⟨rest, c.index + 1, c.line, if ch == byteOrderMark then c.column else c.column + 1⟩

/-- The place some characters on. -/
def advance : Nat → Cursor → Cursor
  | 0, c => c
  | n + 1, c => advance n c.next

/-- The characters here that are of a class. -/
def run (p : Char → Bool) (c : Cursor) : List Char :=
  c.rest.takeWhile p

/-- The place past the characters of a class. -/
def skip (p : Char → Bool) (c : Cursor) : Cursor :=
  advance (c.run p).length c

/-- Whether the text here starts with some characters. -/
def startsWith (c : Cursor) (text : List Char) : Bool :=
  text.isPrefixOf c.rest

/-- Whether a mark between documents stands here. -/
def atDocumentMark (c : Cursor) : Bool :=
  (c.startsWith ['-', '-', '-'] || c.startsWith ['.', '.', '.']) && separates (c.peek 3)

/-- The line break here as the text shows it, and the place after it. -/
def lineBreak (c : Cursor) : Option (Char × Cursor) :=
  let ch := c.here
  if ch == '\r' && c.peek 1 == '\n' then some ('\n', c.advance 2)
  else if ch == '\r' || ch == '\n' || ch.toNat == 0x85 then some ('\n', c.next)
  else if isBreak ch then some (ch, c.next)
  else none

/-- The place past a comment. -/
def skipComment (c : Cursor) : Cursor :=
  if c.here == '#' then c.skip fun ch => !endsLine ch else c

/-- The place past the spaces. -/
def skipSpaces (c : Cursor) : Cursor :=
  c.skip (· == ' ')

end Cursor
end Yaml
end HaskellTags
