import HaskellTags.Decimal.Limit
import HaskellTags.Value.Basic

/-!
# Reading JSON

A reader of JSON texts that says at which character it stopped and what it
expected there.  Beyond the standard it reads `NaN`, `Infinity` and
`-Infinity`; of two entries with one key the last counts.  There may be a limit
on the digits of an integer.
-/

namespace HaskellTags
namespace Json

open Decimal

/-- What is too much to be read. -/
inductive Excess
  /-- An integer with too many digits. -/
  | digits (fault : LimitFault)
  /-- An array, or else an object, inside too many others. -/
  | depth (isArray : Bool)
  deriving DecidableEq, Repr

/-- The wording of an excess. -/
def Excess.message : Excess → String
  | .digits fault => fault.message
  | .depth isArray =>
    "maximum recursion depth exceeded while decoding a JSON " ++
      (if isArray then "array" else "object") ++ " from a unicode string"

/-- How many arrays and objects may be inside each other when settings are read.  A reader
that is called from deeper down has room for fewer. -/
def depthLimit : Nat := 985

/-- What is wrong with a text. -/
inductive Problem
  | value
  | propertyName
  | colon
  | comma
  | controlCharacter
  | escape
  | unicodeEscape
  | unterminated
  | extraData
  | byteOrderMark
  | excess (excess : Excess)
  deriving DecidableEq, Repr

/-- The wording of a problem. -/
def Problem.message : Problem → String
  | .value => "Expecting value"
  | .propertyName => "Expecting property name enclosed in double quotes"
  | .colon => "Expecting ':' delimiter"
  | .comma => "Expecting ',' delimiter"
  | .controlCharacter => "Invalid control character at"
  | .escape => "Invalid \\escape"
  | .unicodeEscape => "Invalid \\uXXXX escape"
  | .unterminated => "Unterminated string starting at"
  | .extraData => "Extra data"
  | .byteOrderMark => "Unexpected UTF-8 BOM (decode using utf-8-sig)"
  | .excess e => e.message

/-- A problem and the number of characters before it. -/
structure Fault where
  problem : Problem
  position : Nat
  deriving DecidableEq, Repr

/-- The wording of a fault in a text: the problem, its line, its column and its
position.  Lines and columns count from one. -/
def Fault.message (text : List Char) (f : Fault) : String :=
  let before := text.take f.position
  let line := before.count '\n' + 1
  let column := (before.reverse.takeWhile (· != '\n')).length + 1
  f.problem.message ++ ": line " ++ toString line ++ " column " ++ toString column ++
    " (char " ++ toString f.position ++ ")"

/-- The rest of a text and the number of characters before it. -/
structure Cursor where
  rest : List Char
  position : Nat

/-- Whether a character may stand between the tokens. -/
def isSpace (c : Char) : Bool :=
  c == ' ' || c == '\t' || c == '\n' || c == '\r'

/-- The cursor past the spaces. -/
def Cursor.skip (c : Cursor) : Cursor :=
  ⟨c.rest.dropWhile isSpace, c.position + (c.rest.takeWhile isSpace).length⟩

/-- The value of a hexadecimal digit. -/
def hexDigit? (c : Char) : Option Nat :=
  if '0' ≤ c && c ≤ '9' then some (c.toNat - '0'.toNat)
  else if 'a' ≤ c && c ≤ 'f' then some (c.toNat - 'a'.toNat + 10)
  else if 'A' ≤ c && c ≤ 'F' then some (c.toNat - 'A'.toNat + 10)
  else none

/-- The value of four hexadecimal digits. -/
def hexQuad? (a b c d : Char) : Option Nat := do
  return (((← hexDigit? a) * 16 + (← hexDigit? b)) * 16 + (← hexDigit? c)) * 16 + (← hexDigit? d)

/-- Whether a code unit begins a pair. -/
def isHighUnit (n : Nat) : Bool := 0xD800 ≤ n && n < 0xDC00

/-- Whether a code unit ends a pair. -/
def isLowUnit (n : Nat) : Bool := 0xDC00 ≤ n && n < 0xE000

/-- The character of a code unit; one half of a pair alone is none. -/
def unitChar (n : Nat) : Char :=
  if isHighUnit n || isLowUnit n then Text.replacement else Char.ofNat n

/-- The character of a pair of code units. -/
def pairChar (high low : Nat) : Char :=
  Char.ofNat (0x10000 + (high - 0xD800) * 0x400 + (low - 0xDC00))

/-- The character of a one-letter escape. -/
def letterChar? : Char → Option Char
  | '"' => some '"'
  | '\\' => some '\\'
  | '/' => some '/'
  | 'b' => some '\x08'
  | 'f' => some '\x0c'
  | 'n' => some '\n'
  | 'r' => some '\r'
  | 't' => some '\t'
  | _ => none

/-- The character of an escape and the number of characters after the backslash
that write it.  `opening` is where the text starts, `p` where the backslash is. -/
def readEscape (opening p : Nat) : List Char → Except Fault (Char × Nat)
  | [] => .error ⟨.unterminated, opening⟩
  | 'u' :: a :: b :: c :: d :: tail =>
    if tail.isEmpty then .error ⟨.unicodeEscape, p + 1⟩
    else
      match hexQuad? a b c d with
      | none => .error ⟨.unicodeEscape, p + 1⟩
      | some unit =>
        match isHighUnit unit, tail with
        | true, '\\' :: 'u' :: e :: f :: g :: h :: _ :: _ =>
          match hexQuad? e f g h with
          | none => .error ⟨.unicodeEscape, p + 7⟩
          | some second =>
            if isLowUnit second then .ok (pairChar unit second, 11) else .ok (unitChar unit, 5)
        | _, _ => .ok (unitChar unit, 5)
  | 'u' :: _ => .error ⟨.unicodeEscape, p + 1⟩
  | c :: _ =>
    match letterChar? c with
    | none => .error ⟨.escape, p⟩
    | some shown => .ok (shown, 1)

/-- The text up to its closing quote.  `opening` is where the quote before it
stands, `skip` counts characters of an escape still to pass, `p` is the position,
and `read` holds the characters read, the last one first. -/
def readText (opening : Nat) :
    List Char → Nat → Nat → List Char → Except Fault (String × Cursor)
  | [], _, _, _ => .error ⟨.unterminated, opening⟩
  | _ :: rest, skip + 1, p, read => readText opening rest skip (p + 1) read
  | c :: rest, 0, p, read =>
    if c = '"' then .ok (String.ofList read.reverse, ⟨rest, p + 1⟩)
    else if c = '\\' then
      match readEscape opening p rest with
      | .error fault => .error fault
      | .ok (shown, width) => readText opening rest width (p + 1) (shown :: read)
    else if c.toNat ≤ 0x1F then .error ⟨.controlCharacter, p⟩
    else readText opening rest 0 (p + 1) (c :: read)

/-- The number that decimal digits write. -/
def digitsValue (digits : List Char) : Nat :=
  digits.foldl (fun n c => n * 10 + (c.toNat - '0'.toNat)) 0

/-- The parts of a number as it is written. -/
structure Numeral where
  negative : Bool
  whole : List Char
  fraction : List Char
  exponent : Option Int

/-- The fraction at the front, if there is one. -/
def takeFraction : List Char → List Char × List Char
  | '.' :: rest =>
    let digits := rest.takeWhile Char.isDigit
    if digits.isEmpty then ([], '.' :: rest) else (digits, rest.drop digits.length)
  | rest => ([], rest)

/-- The exponent at the front, if there is one. -/
def takeExponent : List Char → Option Int × List Char
  | [] => (none, [])
  | mark :: rest =>
    if mark = 'e' ∨ mark = 'E' then
      let negative := rest.head? = some '-'
      let tail := if negative || rest.head? = some '+' then rest.drop 1 else rest
      let digits := tail.takeWhile Char.isDigit
      if digits.isEmpty then (none, mark :: rest)
      else
        let size : Int := digitsValue digits
        (some (if negative then -size else size), tail.drop digits.length)
    else (none, mark :: rest)

/-- The whole part at the front: a zero, or digits that start with another. -/
def takeWhole : List Char → List Char
  | '0' :: _ => ['0']
  | text => text.takeWhile Char.isDigit

/-- The number at the front. -/
def takeNumeral (text : List Char) : Option (Numeral × List Char) :=
  let negative := text.head? = some '-'
  let text := if negative then text.drop 1 else text
  let whole := takeWhole text
  if whole.isEmpty then none
  else
    let (fraction, text) := takeFraction (text.drop whole.length)
    let (exponent, text) := takeExponent text
    some (⟨negative, whole, fraction, exponent⟩, text)

/-- The value of a number: an integer, unless it has a fraction or an exponent. -/
def Numeral.value (limit : Option Nat) (n : Numeral) : Except LimitFault Value :=
  if n.fraction.isEmpty && n.exponent.isNone then
    if limit.any (· < n.whole.length) then .error (.reading n.whole.length)
    else
      let size : Int := digitsValue n.whole
      .ok (.int (if n.negative then -size else size))
  else
    let digits := digitsValue (n.whole ++ n.fraction)
    .ok (.scalar (.float
      (Binary64.ofDecimal n.negative digits (n.exponent.getD 0 - n.fraction.length))))

/-- The words that are values. -/
def wordValues : List (List Char × Value) := [
  ("null".toList, .null),
  ("true".toList, .scalar (.bool true)),
  ("false".toList, .scalar (.bool false)),
  ("NaN".toList, .scalar (.float .nan)),
  ("Infinity".toList, .scalar (.float (.infinite false))),
  ("-Infinity".toList, .scalar (.float (.infinite true)))]

section Values

variable (limit : Option Nat)

/-- The word or number at the front. -/
def readAtom (c : Cursor) : Except Fault (Value × Cursor) :=
  match wordValues.find? fun w => w.1.isPrefixOf c.rest with
  | some (word, value) => .ok (value, ⟨c.rest.drop word.length, c.position + word.length⟩)
  | none =>
    match takeNumeral c.rest with
    | some (numeral, rest) =>
      match numeral.value limit with
      | .ok value => .ok (value, ⟨rest, c.position + (c.rest.length - rest.length)⟩)
      | .error fault => .error ⟨.excess (.digits fault), c.position⟩
    | none => .error ⟨.value, c.position⟩

mutual

/-- The value at the front.  The first argument bounds the steps; each character
is at most two of them.  The second tells how many arrays and objects may be
inside each other. -/
def readValue : Nat → Nat → Cursor → Except Fault (Value × Cursor)
  | 0, _, c => .error ⟨.value, c.position⟩
  | bound + 1, room, c =>
    match c.rest, room with
    | '"' :: rest, _ =>
      (readText c.position rest 0 (c.position + 1) []).map fun r => (.text r.1, r.2)
    | '{' :: _, 0 => .error ⟨.excess (.depth false), c.position⟩
    | '{' :: rest, room + 1 =>
      let inner := Cursor.skip ⟨rest, c.position + 1⟩
      match inner.rest with
      | '}' :: rest => .ok (.map [], ⟨rest, inner.position + 1⟩)
      | _ => readEntries bound room [] inner
    | '[' :: _, 0 => .error ⟨.excess (.depth true), c.position⟩
    | '[' :: rest, room + 1 =>
      let inner := Cursor.skip ⟨rest, c.position + 1⟩
      match inner.rest with
      | ']' :: rest => .ok (.list [], ⟨rest, inner.position + 1⟩)
      | _ => readItems bound room [] inner
    | _, _ => readAtom limit c

/-- The entries of an object from a key on, after those read, the last one first. -/
def readEntries : Nat → Nat → Entries → Cursor → Except Fault (Value × Cursor)
  | 0, _, _, c => .error ⟨.propertyName, c.position⟩
  | bound + 1, room, read, c =>
    match c.rest with
    | '"' :: rest =>
      match readText c.position rest 0 (c.position + 1) [] with
      | .error fault => .error fault
      | .ok (key, c) =>
        let c := c.skip
        match c.rest with
        | ':' :: rest =>
          match readValue bound room (Cursor.skip ⟨rest, c.position + 1⟩) with
          | .error fault => .error fault
          | .ok (value, c) =>
            let c := c.skip
            let read := (.text key, value) :: read
            match c.rest with
            | '}' :: rest =>
              .ok (.map (Entries.ofList read.reverse), ⟨rest, c.position + 1⟩)
            | ',' :: rest => readEntries bound room read (Cursor.skip ⟨rest, c.position + 1⟩)
            | _ => .error ⟨.comma, c.position⟩
        | _ => .error ⟨.colon, c.position⟩
    | _ => .error ⟨.propertyName, c.position⟩

/-- The items of an array from a value on, after those read, the last one first. -/
def readItems : Nat → Nat → List Value → Cursor → Except Fault (Value × Cursor)
  | 0, _, _, c => .error ⟨.value, c.position⟩
  | bound + 1, room, read, c =>
    match readValue bound room c with
    | .error fault => .error fault
    | .ok (value, c) =>
      let c := c.skip
      match c.rest with
      | ']' :: rest => .ok (.list (value :: read).reverse, ⟨rest, c.position + 1⟩)
      | ',' :: rest => readItems bound room (value :: read) (Cursor.skip ⟨rest, c.position + 1⟩)
      | _ => .error ⟨.comma, c.position⟩

end

/-- The value of a whole text, within a limit on digits. -/
def parseChars (text : List Char) : Except Fault Value :=
  if text.head? = some (Char.ofNat 0xFEFF) then .error ⟨.byteOrderMark, 0⟩
  else
    match readValue limit (2 * text.length + 2) depthLimit (Cursor.skip ⟨text, 0⟩) with
    | .error fault => .error fault
    | .ok (value, c) =>
      let c := c.skip
      if c.rest.isEmpty then .ok value else .error ⟨.extraData, c.position⟩

/-- The value of a whole text, within a limit on digits or, without one, of any
size. -/
def parseWithin (text : String) : Except Fault Value :=
  parseChars limit text.toList

end Values

/-- The value of a whole text. -/
def parse (text : String) : Except Fault Value :=
  parseWithin (some digitLimit) text

end Json
end HaskellTags
