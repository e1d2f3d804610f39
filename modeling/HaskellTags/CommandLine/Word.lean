import HaskellTags.CommandLine.Options
import HaskellTags.Text.Digit
import HaskellTags.Text.Lines

/-!
# Words of the command line

Each word of a command line is an argument, an option, or the divider after
which all words are arguments.  A long option may be cut short as long as one
option is left, and may hold its value after an equals sign; a short option may
hold its value right after the letter.
-/

namespace HaskellTags
namespace CommandLine

/-- A word. -/
inductive Word
  | argument (text : String)
  | divider
  | option (o : Opt) (isShort : Bool) (attached : Option (List Char))
  /-- What looks like an option and is none. -/
  | unknown (text : String)
  deriving DecidableEq, Repr

/-- The mark after which all words are arguments. -/
def dividerText : String := "--"

/-- A word that could be one of several options. -/
structure Ambiguity where
  text : String
  spellings : List String
  deriving DecidableEq, Repr

section Reading

/-- Whether a spelling is that of a short option. -/
def isShortSpelling (spelling : String) : Bool :=
  spelling.length = 2

/-- Whether characters are digits and at least one. -/
def isDigitRun (cs : List Char) : Bool :=
  !cs.isEmpty && cs.all Text.isDecimalDigit

/-- Whether characters after a minus sign make a number: digits, or a point and
digits with digits before it or not.  A line break at the end does not count. -/
def isMagnitude (cs : List Char) : Bool :=
  let cs := if cs.getLast? = some '\n' then cs.dropLast else cs
  match Text.splitWhen (· == '.') cs with
  | [whole] => isDigitRun whole
  | [whole, fraction] => whole.all Text.isDecimalDigit && isDigitRun fraction
  | _ => false

/-- Whether a text is a negative number. -/
def isNegativeNumber (text : String) : Bool :=
  match text.toList with
  | '-' :: cs => isMagnitude cs
  | _ => false

/-- A text up to its first equals sign, and the characters after that. -/
def splitEquals (text : String) : String × Option (List Char) :=
  let cs := text.toList
  let before := cs.takeWhile (· ≠ '=')
  (String.ofList before,
    if before.length < cs.length then some (cs.drop (before.length + 1)) else none)

/-- The options that a text may stand for, with what is attached. -/
def candidates (text : String) : List (String × Opt × Option (List Char)) :=
  if dividerText.isPrefixOf text then
    let (start, attached) := splitEquals text
    (Opt.table.filter fun e => start.isPrefixOf e.1).map fun (s, o) => (s, o, attached)
  else
    let letter := String.ofList (text.toList.take 2)
    (Opt.table.filter fun e => e.1 = letter).map fun (s, o) =>
      (s, o, some (text.toList.drop 2))

/-- An option that is written in full, its value attached or not. -/
def exactOption? (text : String) : Option Word :=
  match Opt.ofSpelling? text with
  | some o => some (.option o (isShortSpelling text) none)
  | none =>
    match splitEquals text with
    | (start, some attached) =>
      (Opt.ofSpelling? start).map fun o => .option o (isShortSpelling start) (some attached)
    | (_, none) => none

/-- A word before the divider. -/
def Word.ofText (text : String) : Except Ambiguity Word :=
  if text.toList.head? ≠ some '-' || text = "-" then .ok (.argument text)
  else
    match exactOption? text with
    | some word => .ok word
    | none =>
      match candidates text with
      | [(spelling, o, attached)] => .ok (.option o (isShortSpelling spelling) attached)
      | [] =>
        if isNegativeNumber text || text.toList.contains ' ' then .ok (.argument text)
        else .ok (.unknown text)
      | several => .error ⟨text, several.map Prod.fst⟩

/-- The words of a command line. -/
def Word.ofTexts : List String → Except Ambiguity (List Word)
  | [] => .ok []
  | text :: rest =>
    if text = dividerText then .ok (.divider :: rest.map Word.argument)
    else do return (← Word.ofText text) :: (← Word.ofTexts rest)

end Reading

/-- Whether a word is an argument or the divider. -/
def Word.isArgument : Word → Bool
  | .argument _ | .divider => true
  | _ => false

/-- The text of a word; of an option, its name in messages. -/
def Word.text : Word → String
  | .argument text => text
  | .divider => dividerText
  | .unknown text => text
  | .option o _ _ => o.title

end CommandLine
end HaskellTags
