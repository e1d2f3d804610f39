import HaskellTags.Json.Reader
import HaskellTags.Text.Utf8
import HaskellTags.Yaml.Cursor
import HaskellTags.Yaml.Fault
import HaskellTags.Yaml.Token

/-!
# Names, tags and directives of YAML

Readers of the tokens that are written as one word.  Each gives what it read
and the place after it.
-/

namespace HaskellTags
namespace Yaml

/-- A fault of the text. -/
def malformed {α : Type} : Except Fault α := .error .malformed

/-- The name of an anchor, after the character that announces it. -/
def readAnchorName (c : Cursor) : Except Fault (String × Cursor) :=
  let c := c.next
  let name := c.run isNameChar
  let after := c.advance name.length
  let ends := separates after.here || "?:,]\x7d%@\x60".toList.contains after.here
  if name.isEmpty || !ends then malformed else .ok (String.ofList name, after)

/-- Whether a character may stand in a tag. -/
def isTagChar (ch : Char) : Bool :=
  ch.isAlphanum || "-;/?:@&=+$,_.!~*'()[]".toList.contains ch

/-- The octets of escapes with a percent sign; the first argument bounds their
number. -/
def readTagEscapes : Nat → Cursor → Text.Octets → Except Fault (Text.Octets × Cursor)
  | 0, c, read => .ok (read, c)
  | bound + 1, c, read =>
    if c.here == '%' then
      match Json.hexDigit? (c.peek 1), Json.hexDigit? (c.peek 2) with
      | some a, some b =>
        readTagEscapes bound (c.advance 3) (read ++ [UInt8.ofNat (a * 16 + b)])
      | _, _ => malformed
    else .ok (read, c)

/-- The text of a tag after what was read; the first argument bounds its length. -/
def readTagText : Nat → Cursor → List Char → Except Fault (String × Cursor)
  | 0, c, read => .ok (String.ofList read, c)
  | bound + 1, c, read =>
    if c.here == '%' then
      match readTagEscapes (c.rest.length + 1) c [] with
      | .error fault => .error fault
      | .ok (octets, c) =>
        match Text.decodeStrict octets with
        | .error _ => malformed
        | .ok text => readTagText bound c (read ++ text.toList)
    else
      let word := c.run isTagChar
      if word.isEmpty then
        if read.isEmpty then malformed else .ok (String.ofList read, c)
      else readTagText bound (c.advance word.length) (read ++ word)

/-- The text of a tag. -/
def readTagSuffix (c : Cursor) : Except Fault (String × Cursor) :=
  readTagText (c.rest.length + 1) c []

/-- The handle before the text of a tag. -/
def readTagHandle (c : Cursor) : Except Fault (String × Cursor) :=
  if c.here ≠ '!' then malformed
  else if c.peek 1 == ' ' then .ok ("!", c.next)
  else
    let name := c.next.run isNameChar
    let after := c.advance (name.length + 1)
    if after.here == '!' then .ok (String.ofList ('!' :: name ++ ['!']), after.next)
    else malformed

/-- Whether a tag has a handle of its own: a second exclamation mark in its word. -/
def hasHandle (c : Cursor) : Bool :=
  (c.next.run fun ch => !endsWord ch).contains '!'

/-- A tag. -/
def readTag (c : Cursor) : Except Fault (Token × Cursor) := do
  let (handle, suffix, after) ←
    if c.peek 1 == '<' then do
      let (suffix, after) ← readTagSuffix (c.advance 2)
      if after.here == '>' then pure (none, suffix, after.next) else malformed
    else if separates (c.peek 1) then pure (none, "!", c.next)
    else if hasHandle c then do
      let (handle, after) ← readTagHandle c
      let (suffix, after) ← readTagSuffix after
      pure (some handle, suffix, after)
    else do
      let (suffix, after) ← readTagSuffix c.next
      pure (some "!", suffix, after)
  if endsWord after.here then .ok (.tag handle suffix, after) else malformed

/-- The number of a version. -/
def readVersionNumber (c : Cursor) : Except Fault (Nat × Cursor) :=
  let digits := c.run Char.isDigit
  if digits.isEmpty then malformed
  else if Decimal.digitLimit < digits.length then
    .error (.scalar (.limit (.reading digits.length)))
  else .ok (Json.digitsValue digits, c.advance digits.length)

/-- The rest of a directive that gives the version. -/
def readVersion (c : Cursor) : Except Fault (Directive × Cursor) := do
  let (major, c) ← readVersionNumber c.skipSpaces
  if c.here ≠ '.' then malformed
  let (_, c) ← readVersionNumber c.next
  if endsWord c.here then .ok (.version major, c) else malformed

/-- The rest of a directive that gives a handle. -/
def readHandle (c : Cursor) : Except Fault (Directive × Cursor) := do
  let (handle, c) ← readTagHandle c.skipSpaces
  if c.here ≠ ' ' then malformed
  let (stands, c) ← readTagSuffix c.skipSpaces
  if endsWord c.here then .ok (.handle handle stands, c) else malformed

/-- The rest of a line that may hold nothing but a comment. -/
def readLineRest (c : Cursor) : Except Fault Cursor :=
  let c := c.skipSpaces.skipComment
  if endsLine c.here then
    .ok (match c.lineBreak with
      | some (_, after) => after
      | none => c)
  else malformed

/-- A directive. -/
def readDirective (c : Cursor) : Except Fault (Token × Cursor) := do
  let c := c.next
  let name := c.run isNameChar
  let c := c.advance name.length
  if name.isEmpty || !endsWord c.here then malformed
  let (directive, c) ←
    if name = "YAML".toList then readVersion c
    else if name = "TAG".toList then readHandle c
    else pure (.other, c.skip fun ch => !endsLine ch)
  return (.directive directive, ← readLineRest c)

end Yaml
end HaskellTags
