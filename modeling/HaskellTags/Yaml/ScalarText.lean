import HaskellTags.Yaml.Lexeme

/-!
# Scalars of a YAML text

Readers of plain, quoted and block scalars.  Line breaks inside a scalar are
folded: a single one is a space, and of several the first is dropped.

Readers that loop take a bound on the number of their steps first; the length
of the text that is left is always enough.
-/

namespace HaskellTags
namespace Yaml

section Folding

/-- What stands for a line break and the empty lines after it. -/
def folded (first : Char) (more : List Char) : List Char :=
  if first ≠ '\n' then first :: more
  else if more.isEmpty then [' ']
  else more

end Folding

section Plain

/-- Whether a character is an indicator of flow collections. -/
def isFlowIndicator (ch : Char) : Bool :=
  ",[]\x7b\x7d".toList.contains ch

/-- The characters of a plain scalar up to a space, a break or an indicator. -/
def plainWord (inFlow : Bool) : List Char → List Char
  | [] => []
  | ch :: rest =>
    let next := rest.headD endMark
    let ends := separates ch
      || (ch == ':' && (separates next || (inFlow && isFlowIndicator next)))
      || (inFlow && (ch == '?' || isFlowIndicator ch))
    if ends then [] else ch :: plainWord inFlow rest

/-- The empty lines inside a plain scalar; nothing if a mark between documents
comes after one. -/
def plainBreaks : Nat → Cursor → List Char → Option (List Char) × Cursor
  | 0, c, read => (some read, c)
  | bound + 1, c, read =>
    if c.here == ' ' then plainBreaks bound c.next read
    else
      match c.lineBreak with
      | none => (some read, c)
      | some (ch, after) =>
        if after.atDocumentMark then (none, after)
        else plainBreaks bound after (read ++ [ch])

/-- What stands between two words of a plain scalar, the place after it, and
whether a line ended. -/
def plainGap (c : Cursor) : List Char × Cursor × Bool :=
  let spaces := c.run (· == ' ')
  let c := c.advance spaces.length
  match c.lineBreak with
  | none => (spaces, c, false)
  | some (first, c) =>
    if c.atDocumentMark then ([], c, true)
    else
      match plainBreaks (c.rest.length + 1) c [] with
      | (some more, c) => (folded first more, c, true)
      | (none, c) => ([], c, true)

/-- The words of a plain scalar after what was read, the last character first. -/
def plainWords (inFlow : Bool) (indent : Nat) :
    Nat → Cursor → (read gap : List Char) → (lineEnded : Bool) → List Char × Cursor × Bool
  | 0, c, read, _, lineEnded => (read, c, lineEnded)
  | bound + 1, c, read, gap, lineEnded =>
    let word := plainWord inFlow c.rest
    if c.here == '#' || word.isEmpty then (read, c, lineEnded)
    else
      let read := word.reverseAux (gap.reverseAux read)
      let (gap, c, lineEnded) := plainGap (c.advance word.length)
      if gap.isEmpty || c.here == '#' || (!inFlow && c.column < indent) then
        (read, c, lineEnded)
      else plainWords inFlow indent bound c read gap lineEnded

/-- A plain scalar that is indented so far at least, the place after it, and
whether that is on a new line. -/
def readPlain (inFlow : Bool) (indent : Nat) (c : Cursor) : String × Cursor × Bool :=
  let (text, c, lineEnded) := plainWords inFlow indent (c.rest.length + 1) c [] [] false
  (String.ofList text.reverse, c, lineEnded)

end Plain

section Quoted

/-- The characters that are escaped by one letter. -/
def escapes : List (Char × Char) := [
  ('0', '\x00'), ('a', '\x07'), ('b', '\x08'), ('t', '\t'), ('\t', '\t'), ('n', '\n'),
  ('v', '\x0b'), ('f', '\x0c'), ('r', '\r'), ('e', '\x1b'), (' ', ' '), ('"', '"'),
  ('\\', '\\'), ('/', '/'), ('N', '\u0085'), ('_', '\u00a0'), ('L', '\u2028'),
  ('P', '\u2029')]

/-- How many digits an escaped code point has. -/
def escapeWidth : Char → Option Nat
  | 'x' => some 2
  | 'u' => some 4
  | 'U' => some 8
  | _ => none

/-- The number that hexadecimal digits write. -/
def hexValue? (digits : List Char) : Option Nat :=
  digits.foldl (fun n? ch => do return (← n?) * 16 + (← Json.hexDigit? ch)) (some 0)

/-- The empty lines inside a quoted scalar. -/
def quotedBreaks : Nat → Cursor → List Char → Except Fault (List Char × Cursor)
  | 0, c, read => .ok (read, c)
  | bound + 1, c, read =>
    if c.atDocumentMark then malformed
    else
      let c := c.skip fun ch => ch == ' ' || ch == '\t'
      match c.lineBreak with
      | some (ch, c) => quotedBreaks bound c (read ++ [ch])
      | none => .ok (read, c)

/-- The character of an escape, after the backslash. -/
def readEscaped (c : Cursor) : Except Fault (List Char × Cursor) :=
  match escapes.lookup c.here, escapeWidth c.here, c.lineBreak with
  | some ch, _, _ => .ok ([ch], c.next)
  | none, some width, _ =>
    let digits := c.next.rest.take width
    match hexValue? digits with
    | none => malformed
    | some n =>
      if digits.length < width then malformed
      else if 0x80000000 ≤ n then .error (.scalar .hugeCodePoint)
      else if 0x110000 ≤ n then .error (.scalar .codePoint)
      else .ok ([Json.unitChar n], c.advance (width + 1))
  | none, none, some (_, c) => quotedBreaks (c.rest.length + 1) c []
  | none, none, none => malformed

/-- What spaces inside a quoted scalar stand for. -/
def quotedGap (c : Cursor) : Except Fault (List Char × Cursor) :=
  let spaces := c.run fun ch => ch == ' ' || ch == '\t'
  let c := c.advance spaces.length
  match c.lineBreak with
  | some (first, c) => do
    let (more, c) ← quotedBreaks (c.rest.length + 1) c []
    return (folded first more, c)
  | none => if c.rest.isEmpty then malformed else .ok (spaces, c)

/-- The text of a quoted scalar after what was read, to its closing quote, the
last character first. -/
def quotedText (quote : Char) : Nat → Cursor → List Char → Except Fault (List Char × Cursor)
  | 0, _, _ => malformed
  | bound + 1, c, read =>
    let ch := c.here
    if ch == quote then
      if quote == '\'' && c.peek 1 == '\'' then
        quotedText quote bound (c.advance 2) ('\'' :: read)
      else .ok (read, c.next)
    else if quote == '"' && ch == '\\' then
      match readEscaped c.next with
      | .error fault => .error fault
      | .ok (text, c) => quotedText quote bound c (text.reverseAux read)
    else if separates ch then
      match quotedGap c with
      | .error fault => .error fault
      | .ok (text, c) => quotedText quote bound c (text.reverseAux read)
    else quotedText quote bound c.next (ch :: read)

/-- A quoted scalar. -/
def readQuoted (c : Cursor) : Except Fault (String × Cursor) := do
  let (text, after) ← quotedText c.here (c.rest.length + 1) c.next []
  return (String.ofList text.reverse, after)

end Quoted

section Block

/-- What is kept of the line breaks at the end of a block scalar. -/
inductive Chomping
  | none
  | one
  | all
  deriving DecidableEq, Repr

/-- The header of a block scalar. -/
structure BlockHeader where
  chomping : Chomping
  /-- The indentation that is asked for. -/
  increment : Option Nat
  deriving DecidableEq, Repr

/-- The sign of a header. -/
def chomping? : Char → Option Chomping
  | '+' => some .all
  | '-' => some .none
  | _ => none

/-- The number of a header; zero is none. -/
def readIncrement (c : Cursor) : Except Fault (Option Nat × Cursor) :=
  if c.here == '0' then malformed
  else if c.here.isDigit then .ok (some (Json.digitsValue [c.here]), c.next)
  else .ok (none, c)

/-- The header of a block scalar and the rest of its line. -/
def readBlockHeader (c : Cursor) : Except Fault (BlockHeader × Cursor) := do
  let (header, c) ←
    match chomping? c.here with
    | some chomping => do
      let (increment, c) ← readIncrement c.next
      pure ((⟨chomping, increment⟩ : BlockHeader), c)
    | none => do
      let (increment, c) ← readIncrement c
      match increment, chomping? c.here with
      | some n, some chomping => pure (⟨chomping, some n⟩, c.next)
      | _, _ => pure (⟨.one, increment⟩, c)
  if endsWord c.here then return (header, ← readLineRest c) else malformed

/-- The empty lines at the start of a block scalar, and the deepest column of
their spaces. -/
def leadingLines : Nat → Cursor → List Char → Nat → List Char × Nat × Cursor
  | 0, c, read, deepest => (read, deepest, c)
  | bound + 1, c, read, deepest =>
    if c.here == ' ' then leadingLines bound c.next read (max deepest c.next.column)
    else
      match c.lineBreak with
      | some (ch, c) => leadingLines bound c (read ++ [ch]) deepest
      | none => (read, deepest, c)

/-- The place past the spaces up to a column. -/
def skipIndent (indent : Nat) (c : Cursor) : Cursor :=
  let spaces := c.run (· == ' ')
  c.advance (min spaces.length (indent - c.column))

/-- The empty lines before a line that is indented. -/
def emptyLines (indent : Nat) : Nat → Cursor → List Char → List Char × Cursor
  | 0, c, read => (read, c)
  | bound + 1, c, read =>
    let c := skipIndent indent c
    match c.lineBreak with
    | some (ch, c) => emptyLines indent bound c (read ++ [ch])
    | none => (read, c)

/-- Whether a line of a block scalar stands here. -/
def atBlockLine (indent : Nat) (c : Cursor) : Bool :=
  c.column == indent && !c.rest.isEmpty

/-- Whether the text here starts with a blank. -/
def startsBlank (c : Cursor) : Bool :=
  c.here == ' ' || c.here == '\t'

/-- The lines of a block scalar after what was read, the last character first;
beside the text, its last line break and the empty lines after that. -/
def blockLines (isFolded : Bool) (indent : Nat) :
    Nat → Cursor → (read breaks : List Char) → List Char × List Char × List Char × Cursor
  | 0, c, read, breaks => (read, [], breaks, c)
  | bound + 1, c, read, breaks =>
    let startedBlank := startsBlank c
    let line := c.run fun ch => !endsLine ch
    let read := line.reverseAux (breaks.reverseAux read)
    let c := c.advance line.length
    let (ending, c) : List Char × Cursor := match c.lineBreak with
      | some (ch, c) => ([ch], c)
      | none => ([], c)
    let (breaks, c) := emptyLines indent (c.rest.length + 1) c []
    if atBlockLine indent c then
      let joint :=
        if isFolded && ending == ['\n'] && !startedBlank && !startsBlank c then
          (if breaks.isEmpty then [' '] else [])
        else ending
      blockLines isFolded indent bound c (joint.reverseAux read) breaks
    else (read, ending, breaks, c)

/-- A block scalar, given how far its lines are indented at least. -/
def readBlock (least : Nat) (c : Cursor) : Except Fault (String × Cursor) := do
  let isFolded := c.here == '>'
  let (header, c) ← readBlockHeader c.next
  let bound := c.rest.length + 1
  let (indent, breaks, c) : Nat × List Char × Cursor :=
    match header.increment with
    | none =>
      let (breaks, deepest, c) := leadingLines bound c [] 0
      (max least deepest, breaks, c)
    | some n =>
      let indent := least + n - 1
      let (breaks, c) := emptyLines indent bound c []
      (indent, breaks, c)
  let (text, ending, breaks, c) :=
    if atBlockLine indent c then blockLines isFolded indent bound c [] breaks
    else ([], [], breaks, c)
  let tail := match header.chomping with
    | .none => []
    | .one => ending
    | .all => ending ++ breaks
  return (String.ofList (text.reverse ++ tail), c)

end Block

end Yaml
end HaskellTags
