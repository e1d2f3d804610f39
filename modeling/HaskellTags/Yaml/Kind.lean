import HaskellTags.Json.Reader
import HaskellTags.Text.Lines

/-!
# Kinds of YAML nodes

A node has a kind: the one that its tag names, or else, for a plain scalar, the
one that the form of its text tells.
-/

namespace HaskellTags
namespace Yaml

/-- A kind of node. -/
inductive Kind
  | null
  | truth
  | integer
  | number
  | text
  | timestamp
  | binary
  | sequence
  | mapping
  | set
  | orderedMap
  | pairs
  /-- The key under which other mappings are merged into one. -/
  | merge
  /-- The key of a mapping's value as a scalar. -/
  | default
  /-- A kind that has no values here. -/
  | unknown
  deriving DecidableEq, Repr

section Tags

/-- What the tags of the known kinds start with. -/
def coreTag : String := "tag:yaml.org,2002:"

/-- The names of the known kinds. -/
def kindNames : List (String × Kind) := [
  ("null", .null), ("bool", .truth), ("int", .integer), ("float", .number), ("str", .text),
  ("timestamp", .timestamp), ("binary", .binary), ("seq", .sequence), ("map", .mapping),
  ("set", .set), ("omap", .orderedMap), ("pairs", .pairs), ("merge", .merge),
  ("value", .default)]

/-- The kind that a tag names. -/
def Kind.ofTag (tag : String) : Kind :=
  match kindNames.find? fun e => coreTag ++ e.1 = tag with
  | some (_, kind) => kind
  | none => .unknown

end Tags

section Forms

/-- Whether a character is a digit, or an underscore between digits. -/
def isSpacedDigit (ch : Char) : Bool :=
  ch.isDigit || ch == '_'

/-- A text without its sign. -/
def dropSign : List Char → List Char
  | '-' :: rest => rest
  | '+' :: rest => rest
  | cs => cs

/-- The words for truth values. -/
def truthWords : List (String × Bool) := [
  ("yes", true), ("no", false), ("true", true), ("false", false), ("on", true), ("off", false)]

/-- A word with its first letter in upper case. -/
def capitalized (word : String) : String :=
  match word.toList with
  | [] => ""
  | ch :: rest => String.ofList (ch.toUpper :: rest)

/-- Whether a text is a word in lower case, capitalized or in upper case. -/
def isWord (word text : String) : Bool :=
  text = word || text = capitalized word || text = word.toUpper

/-- Whether a text has the form of a truth value. -/
def isTruth (text : String) : Bool :=
  truthWords.any fun e => isWord e.1 text

/-- Whether a text has the form of nothing. -/
def isNull (text : String) : Bool :=
  text = "" || text = "~" || isWord "null" text

/-- Whether characters are digits that an exponent may have. -/
def isExponent : List Char → Bool
  | [] => true
  | e :: sign :: digits =>
    (e == 'e' || e == 'E') && (sign == '-' || sign == '+') && !digits.isEmpty
      && digits.all Char.isDigit
  | _ => false

/-- Whether characters are a point and what may follow it. -/
def isFraction : List Char → Bool
  | '.' :: rest => isExponent (rest.dropWhile isSpacedDigit)
  | _ => false

/-- Whether characters are a sixtieth part: one digit, or two up to 59. -/
def isSixtieth : List Char → Bool
  | [a] => a.isDigit
  | [a, b] => '0' ≤ a && a ≤ '5' && b.isDigit
  | _ => false

/-- Whether characters are numbers between colons, the first with the digits
of a class and all others sixtieth parts. -/
def isSexagesimal (first : List Char → Bool) (cs : List Char) : Bool :=
  match Text.splitWhen (· == ':') cs with
  | head :: part :: parts => first head && (part :: parts).all isSixtieth
  | _ => false

/-- Whether characters are a digit and more digits. -/
def isDigits : List Char → Bool
  | d :: rest => d.isDigit && rest.all isSpacedDigit
  | [] => false

/-- Whether characters are a digit that is not zero and more digits. -/
def isPositive (cs : List Char) : Bool :=
  isDigits cs && cs.head? ≠ some '0'

/-- Whether characters are not empty and of a class. -/
def isRun (p : Char → Bool) (cs : List Char) : Bool :=
  !cs.isEmpty && cs.all p

/-- Whether characters without a sign have the form of an integer. -/
def isMagnitude : List Char → Bool
  | ['0'] => true
  | '0' :: 'b' :: rest => isRun (fun ch => ch == '0' || ch == '1' || ch == '_') rest
  | '0' :: 'x' :: rest => isRun (fun ch => (Json.hexDigit? ch).isSome || ch == '_') rest
  | '0' :: rest => isRun (fun ch => ('0' ≤ ch && ch ≤ '7') || ch == '_') rest
  | cs => isPositive cs || isSexagesimal isPositive cs

/-- Whether a text has the form of an integer. -/
def isInteger (text : String) : Bool :=
  isMagnitude (dropSign text.toList)

/-- Whether a text has the form of a number with a point. -/
def isNumber (text : String) : Bool :=
  let cs := text.toList
  let bare := dropSign cs
  let whole := bare.takeWhile fun ch => ch ≠ '.'
  let rest := bare.dropWhile fun ch => ch ≠ '.'
  (isDigits whole && isFraction rest)
    || (isSexagesimal isDigits whole && rest.head? == some '.' && rest.tail.all isSpacedDigit)
    || (match cs with
        | '.' :: d :: _ => d.isDigit && isFraction cs
        | _ => false)
    || [".inf", ".Inf", ".INF"].contains (String.ofList bare)
    || [".nan", ".NaN", ".NAN"].contains text

/-- Whether characters start with so many digits, and the rest. -/
def takeDigits (least most : Nat) (cs : List Char) : Option (List Char × List Char) :=
  let digits := (cs.take most).takeWhile Char.isDigit
  if digits.length < least then none else some (digits, cs.drop digits.length)

/-- The rest after a character. -/
def takeChar (ch : Char) : List Char → Option (List Char)
  | c :: rest => if c == ch then some rest else none
  | [] => none

/-- The parts of a moment of a day. -/
structure Clock where
  hour : List Char
  minute : List Char
  second : List Char
  fraction : List Char
  /-- The sign, hours and minutes of the distance from universal time; no sign
  stands for no distance. -/
  zone : Option (Option Char × List Char × List Char)

/-- The parts of a date, and of a moment on it. -/
structure Calendar where
  year : List Char
  month : List Char
  day : List Char
  clock : Option Clock

/-- Whether a character is a space or a tab. -/
def isGap (ch : Char) : Bool :=
  ch == ' ' || ch == '\t'

/-- The distance from universal time at the end of a moment. -/
def takeZone (cs : List Char) : Option (Option (Option Char × List Char × List Char)) :=
  match cs.dropWhile isGap with
  | ['Z'] => some (some (none, [], []))
  | sign :: rest =>
    if sign == '-' || sign == '+' then do
      let (hours, rest) ← takeDigits 1 2 rest
      if rest.isEmpty then return some (some sign, hours, [])
      let (minutes, rest) ← takeDigits 2 2 (← takeChar ':' rest)
      if rest.isEmpty then return some (some sign, hours, minutes) else none
    else none
  | [] => if cs.isEmpty then some none else none

/-- The time of day at the end of a moment. -/
def takeClock (cs : List Char) : Option Clock := do
  let rest ← match cs with
    | 'T' :: rest => some rest
    | 't' :: rest => some rest
    | ch :: rest => if isGap ch then some (rest.dropWhile isGap) else none
    | [] => none
  let (hour, rest) ← takeDigits 1 2 rest
  let (minute, rest) ← takeDigits 2 2 (← takeChar ':' rest)
  let (second, rest) ← takeDigits 2 2 (← takeChar ':' rest)
  let (fraction, rest) := match rest with
    | '.' :: rest => (rest.takeWhile Char.isDigit, rest.dropWhile Char.isDigit)
    | _ => ([], rest)
  return ⟨hour, minute, second, fraction, ← takeZone rest⟩

/-- The parts of a text that writes a date or a moment. -/
def calendar? (text : String) : Option Calendar := do
  let (year, rest) ← takeDigits 4 4 text.toList
  let (month, rest) ← takeDigits 1 2 (← takeChar '-' rest)
  let (day, rest) ← takeDigits 1 2 (← takeChar '-' rest)
  if rest.isEmpty then return ⟨year, month, day, none⟩
  else return ⟨year, month, day, some (← takeClock rest)⟩

/-- Whether a text has the form of a date or a moment; a date alone has two
digits for month and day. -/
def isTimestamp (text : String) : Bool :=
  match calendar? text with
  | none => false
  | some c => c.clock.isSome || (c.month.length = 2 && c.day.length = 2)

/-- Whether a text is nothing but the indicator of a tag, an anchor or a second
use of a node. -/
def isIndicator (text : String) : Bool :=
  ["!", "&", "*"].contains text

/-- A text without the line break at its end. -/
def dropFinalBreak (text : String) : String :=
  match text.toList.reverse with
  | '\n' :: rest => String.ofList rest.reverse
  | _ => text

/-- The kind that the form of a plain scalar tells. -/
def Kind.ofForm (scalar : String) : Kind :=
  let text := dropFinalBreak scalar
  if isTruth text then .truth
  else if isNumber text then .number
  else if isInteger text then .integer
  else if text = "<<" then .merge
  else if isNull text && scalar ≠ "\n" then .null
  else if isTimestamp text then .timestamp
  else if text = "=" then .default
  else if isIndicator text then .unknown
  else .text

end Forms

end Yaml
end HaskellTags
