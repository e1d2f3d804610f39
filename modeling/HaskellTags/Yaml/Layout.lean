import HaskellTags.Yaml.ScalarText

/-!
# Tokens from the layout of a YAML text

Block collections are marked by indentation and a key by the colon after it,
so some tokens are known only later than they start.  The state of the reading
holds the indentations of the open blocks and, for each open flow collection,
the token that would be a key if a colon came next.

The text is read only as far as the next token needs, so that what is wrong with
the tokens so far comes before what is wrong with the rest of the text.
-/

namespace HaskellTags
namespace Yaml

/-- A token that may turn out to be a key. -/
structure Candidate where
  /-- How many tokens come before it. -/
  token : Nat
  /-- Whether it must be a key. -/
  required : Bool
  index : Nat
  line : Nat
  column : Nat
  deriving DecidableEq, Repr

/-- How far apart a key and its colon may be. -/
def longestKey : Nat := 1024

/-- The state of the reading. -/
structure Layout where
  /-- The length of the text. -/
  size : Nat
  cursor : Cursor
  /-- The tokens that were read and not yet taken. -/
  tokens : List Token
  /-- How many tokens were taken. -/
  taken : Nat
  /-- Whether the end of the text was read. -/
  ended : Bool
  /-- The columns of the open blocks, the innermost first. -/
  indents : List Nat
  /-- Whether a key may start here. -/
  allowsKey : Bool
  /-- The candidate of the innermost collection. -/
  candidate : Option Candidate
  /-- The candidates around the open flow collections, the innermost first. -/
  outer : List (Option Candidate)

namespace Layout

/-- The state at the start of a text. -/
def start (text : List Char) : Layout where
  size := text.length
  cursor := .start text
  tokens := []
  taken := 0
  ended := false
  indents := []
  allowsKey := true
  candidate := none
  outer := []

section State

/-- Whether the place is inside a flow collection. -/
def inFlow (s : Layout) : Bool :=
  !s.outer.isEmpty

/-- The least column of what belongs to the innermost block. -/
def innerColumn (s : Layout) : Nat :=
  match s.indents with
  | [] => 0
  | i :: _ => i + 1

/-- How many tokens come before the next one to be read. -/
def count (s : Layout) : Nat :=
  s.taken + s.tokens.length

/-- The state after one more token. -/
def emit (t : Token) (s : Layout) : Layout :=
  { s with tokens := s.tokens ++ [t] }

/-- The state with a token put after so many others. -/
def emitAt (position : Nat) (t : Token) (s : Layout) : Layout :=
  let before := position - s.taken
  { s with tokens := s.tokens.take before ++ t :: s.tokens.drop before }

/-- The state at another place. -/
def moved (c : Cursor) (s : Layout) : Layout :=
  { s with cursor := c }

/-- The state in which a key may start or not. -/
def allowing (allows : Bool) (s : Layout) : Layout :=
  { s with allowsKey := allows }

/-- The blocks left open and the number of those closed, when all are closed
that are indented further than a column. -/
def closed (column : Nat) : List Nat → List Nat × Nat
  | [] => ([], 0)
  | i :: rest =>
    if column < i then
      let (kept, n) := closed column rest
      (kept, n + 1)
    else (i :: rest, 0)

/-- Close the blocks that are indented further than a column. -/
def unwind (column : Nat) (s : Layout) : Layout :=
  if s.inFlow then s
  else
    let (kept, n) := closed column s.indents
    { s with indents := kept, tokens := s.tokens ++ List.replicate n .blockEnd }

/-- Close all blocks. -/
def unwindAll (s : Layout) : Layout :=
  if s.inFlow then s
  else { s with
    indents := [], tokens := s.tokens ++ List.replicate s.indents.length .blockEnd }

/-- Whether a column is indented further than the innermost block. -/
def opensBlock (column : Nat) (s : Layout) : Bool :=
  match s.indents with
  | [] => true
  | i :: _ => i < column

/-- Open a block at a column if it is indented further, with a token at a
position. -/
def openBlock (column position : Nat) (t : Token) (s : Layout) : Layout :=
  if s.opensBlock column then
    emitAt position t { s with indents := column :: s.indents }
  else s

end State

section Candidates

/-- Drop the candidate; one that must be a key has to become it. -/
def dropCandidate (s : Layout) : Except Fault Layout :=
  match s.candidate with
  | some k => if k.required then malformed else .ok { s with candidate := none }
  | none => .ok s

/-- Make the next token a candidate if a key may start here. -/
def saveCandidate (s : Layout) : Except Fault Layout :=
  if s.allowsKey then do
    let s ← s.dropCandidate
    return { s with candidate := some {
      token := s.count
      required := !s.inFlow && s.indents.head? == some s.cursor.column
      index := s.cursor.index
      line := s.cursor.line
      column := s.cursor.column } }
  else .ok s

/-- Whether a colon here is too far from a candidate. -/
def isStale (c : Cursor) (k : Candidate) : Bool :=
  k.line ≠ c.line || longestKey < c.index - k.index

/-- A candidate unless it is stale. -/
def freshen (c : Cursor) : Option Candidate → Except Fault (Option Candidate)
  | none => .ok none
  | some k =>
    if isStale c k then (if k.required then malformed else .ok none) else .ok (some k)

/-- Drop the stale candidates. -/
def dropStale (s : Layout) : Except Fault Layout := do
  return { s with
    candidate := ← freshen s.cursor s.candidate
    outer := ← s.outer.mapM (freshen s.cursor) }

end Candidates

section Blanks

/-- The place of the next token, and whether a line ended before it. -/
def skipBlanks : Nat → Cursor → Bool → Cursor × Bool
  | 0, c, lineEnded => (c, lineEnded)
  | bound + 1, c, lineEnded =>
    let c := c.skipSpaces.skipComment
    match c.lineBreak with
    | some (_, c) => skipBlanks bound c true
    | none => (c, lineEnded)

/-- Go to the next token; a new line outside flow collections may start with a
key. -/
def toToken (s : Layout) : Layout :=
  let c := if s.cursor.index = 0 && s.cursor.here == byteOrderMark then s.cursor.next
    else s.cursor
  let (c, lineEnded) := skipBlanks (c.rest.length + 1) c false
  { s with cursor := c, allowsKey := s.allowsKey || (lineEnded && !s.inFlow) }

end Blanks

section Steps

/-- The end of the text. -/
def endStream (s : Layout) : Except Fault Layout := do
  let s ← s.unwindAll.dropCandidate
  return { s.emit .streamEnd with ended := true }

/-- A token that stands outside all blocks. -/
def outside (read : Cursor → Except Fault (Token × Cursor)) (s : Layout) :
    Except Fault Layout := do
  let s ← s.unwindAll.dropCandidate
  let (t, c) ← read s.cursor
  return ((s.allowing false).emit t).moved c

/-- A mark between documents. -/
def documentMark (t : Token) : Layout → Except Fault Layout :=
  outside fun c => .ok (t, c.advance 3)

/-- The start of a flow collection. -/
def openFlow (t : Token) (s : Layout) : Except Fault Layout := do
  let s ← s.saveCandidate
  let s := { s with outer := s.candidate :: s.outer, candidate := none }
  return ((s.allowing true).emit t).moved s.cursor.next

/-- The end of a flow collection. -/
def closeFlow (t : Token) (s : Layout) : Except Fault Layout := do
  let s ← s.dropCandidate
  match s.outer with
  | [] => malformed
  | k :: rest =>
    let s := { s with outer := rest, candidate := k }
    return ((s.allowing false).emit t).moved s.cursor.next

/-- The comma of a flow collection. -/
def flowEntry (s : Layout) : Except Fault Layout := do
  let s ← s.dropCandidate
  return ((s.allowing true).emit .flowEntry).moved s.cursor.next

/-- An indicator that opens a block where it is the first of one. -/
def blockIndicator (block t : Token) (allows : Bool) (s : Layout) : Except Fault Layout := do
  if !s.inFlow && !s.allowsKey then malformed
  let s := if s.inFlow then s else s.openBlock s.cursor.column s.count block
  let s ← s.dropCandidate
  return ((s.allowing allows).emit t).moved s.cursor.next

/-- The colon before a value: the candidate becomes a key. -/
def value (s : Layout) : Except Fault Layout :=
  match s.candidate with
  | some k =>
    let s := emitAt k.token .key { s with candidate := none }
    let s := if s.inFlow then s else s.openBlock k.column k.token .blockMappingStart
    .ok (((s.allowing false).emit .value).moved s.cursor.next)
  | none => s.blockIndicator .blockMappingStart .value (!s.inFlow)

/-- A token that may be a key. -/
def content (read : Cursor → Except Fault (Token × Cursor)) (s : Layout) :
    Except Fault Layout := do
  let s ← s.saveCandidate
  let (t, c) ← read s.cursor
  return ((s.allowing false).emit t).moved c

/-- A plain scalar; a key may start after one that ends its line. -/
def plain (s : Layout) : Except Fault Layout := do
  let s ← s.saveCandidate
  let (text, c, lineEnded) := readPlain s.inFlow s.innerColumn s.cursor
  return ((s.allowing lineEnded).emit (.scalar text true)).moved c

/-- A block scalar. -/
def blockScalar (s : Layout) : Except Fault Layout := do
  let s ← s.dropCandidate
  let (text, c) ← readBlock (max s.innerColumn 1) s.cursor
  return ((s.allowing true).emit (.scalar text false)).moved c

/-- Whether a plain scalar starts here. -/
def startsPlain (s : Layout) : Bool :=
  let ch := s.cursor.here
  let indicator := separates ch || "-?:,[]\x7b\x7d#&*!|>'\"%@\x60".toList.contains ch
  !indicator || (!separates (s.cursor.peek 1)
    && (ch == '-' || (!s.inFlow && (ch == '?' || ch == ':'))))

/-- The next token that is not the end, by its first character. -/
def token (s : Layout) : Except Fault Layout :=
  let c := s.cursor
  let ch := c.here
  let aloneOrFlow := s.inFlow || separates (c.peek 1)
  if ch == '%' && c.column = 0 then s.outside readDirective
  else if ch == '-' && c.column = 0 && c.atDocumentMark then s.documentMark .documentStart
  else if ch == '.' && c.column = 0 && c.atDocumentMark then s.documentMark .documentEnd
  else if ch == '[' then s.openFlow .flowSequenceStart
  else if ch == '\x7b' then s.openFlow .flowMappingStart
  else if ch == ']' then s.closeFlow .flowSequenceEnd
  else if ch == '\x7d' then s.closeFlow .flowMappingEnd
  else if ch == ',' then s.flowEntry
  else if ch == '-' && separates (c.peek 1) then
    s.blockIndicator .blockSequenceStart .blockEntry true
  else if ch == '?' && aloneOrFlow then
    s.blockIndicator .blockMappingStart .key (!s.inFlow)
  else if ch == ':' && aloneOrFlow then s.value
  else if ch == '*' then s.content fun c => do
    let (name, c) ← readAnchorName c
    return (.reference name, c)
  else if ch == '&' then s.content fun c => do
    let (name, c) ← readAnchorName c
    return (.anchor name, c)
  else if ch == '!' then s.content readTag
  else if (ch == '|' || ch == '>') && !s.inFlow then s.blockScalar
  else if ch == '\'' || ch == '"' then s.content fun c => do
    let (text, c) ← readQuoted c
    return (.scalar text false, c)
  else if s.startsPlain then s.plain
  else malformed

/-- Read one more token, and the ends of blocks before it. -/
def more (s : Layout) : Except Fault Layout := do
  let s ← s.toToken.dropStale
  let s := s.unwind s.cursor.column
  if s.cursor.rest.isEmpty then s.endStream else s.token

end Steps

section Taking

/-- Whether more has to be read to know the next token: there is none yet, or it
may turn out to be a key. -/
def isOpen (s : Layout) : Bool :=
  let mayBeKey := (s.candidate :: s.outer).any fun k? => k?.any fun k => k.token == s.taken
  !s.ended && (s.tokens.isEmpty || mayBeKey)

/-- Read until the next token is known.  The first argument bounds the steps;
each reads a character or the end of the text. -/
def settle : Nat → Layout → Except Fault Layout
  | 0, _ => malformed
  | bound + 1, s => do
    let s ← if s.ended || s.tokens.isEmpty then pure s else s.dropStale
    if s.isOpen then settle bound (← s.more) else return s

/-- The next token, and the state in which it is known. -/
def next (s : Layout) : Except Fault (Token × Layout) := do
  let s ← settle (s.size + 2) s
  return (s.tokens.headD .streamEnd, s)

/-- The state after the next token. -/
def take (s : Layout) : Layout :=
  { s with tokens := s.tokens.tail, taken := s.taken + 1 }

end Taking
end Layout
end Yaml
end HaskellTags
