import HaskellTags.Text.Quoted
import HaskellTags.Value.Display

/-!
# Writing JSON

Values as JSON on one line: a blank after every comma and colon, escapes for
the quote, the backslash and the control characters, all else as it is.  A value
with an integer of too many digits is not written.
-/

namespace HaskellTags
namespace Json

/-- A character between quotes. -/
def escapedChar : Char → List Char
  | '"' => ['\\', '"']
  | '\\' => ['\\', '\\']
  | '\n' => ['\\', 'n']
  | '\r' => ['\\', 'r']
  | '\t' => ['\\', 't']
  | '\x08' => ['\\', 'b']
  | '\x0c' => ['\\', 'f']
  | c => if c.toNat < 0x20 then '\\' :: 'u' :: Text.hexDigits 4 c.toNat else [c]

/-- A text in quotes. -/
def renderText (s : String) : String :=
  String.ofList ('"' :: s.toList.flatMap escapedChar ++ ['"'])

/-- A scalar. -/
def renderScalar : Scalar → String
  | .null => "null"
  | .bool b => if b then "true" else "false"
  | .int n => toString n
  | .float .nan => "NaN"
  | .float (.infinite negative) => if negative then "-Infinity" else "Infinity"
  | .float x => Decimal.plainLayout.render x
  | s => renderText s.plain

mutual

/-- A value on one line. -/
def render : Value → String
  | .scalar s => renderScalar s
  | .list items => "[" ++ ", ".intercalate (renderItems items) ++ "]"
  | .map entries => "\x7b" ++ ", ".intercalate (renderEntries entries) ++ "\x7d"
  | .set members => "[" ++ ", ".intercalate (members.map renderScalar) ++ "]"
  | .pair first second => "[" ++ render first ++ ", " ++ render second ++ "]"
  | .cycle _ => "null"

/-- The items of an array. -/
def renderItems : List Value → List String
  | [] => []
  | v :: rest => render v :: renderItems rest

/-- The entries of an object. -/
def renderEntries : List (Scalar × Value) → List String
  | [] => []
  | (k, v) :: rest => (renderText k.plain ++ ": " ++ render v) :: renderEntries rest

end

section Writing

variable (limit : Option Nat)

/-- Whether a scalar can be written within a limit on digits. -/
def fitsScalar : Scalar → Bool
  | .int n => Decimal.isWithin limit n
  | _ => true

mutual

/-- Whether all integers in a value can be written within a limit on digits. -/
def fits : Value → Bool
  | .scalar s => fitsScalar limit s
  | .list items => fitsItems items
  | .map entries => fitsEntries entries
  | .set members => members.all (fitsScalar limit)
  | .pair first second => fits first && fits second
  | .cycle _ => true

/-- Whether the items of an array can be written. -/
def fitsItems : List Value → Bool
  | [] => true
  | v :: rest => fits v && fitsItems rest

/-- Whether the entries of an object can be written. -/
def fitsEntries : List (Scalar × Value) → Bool
  | [] => true
  | (k, v) :: rest => fitsScalar limit k && fits v && fitsEntries rest

end

/-- A value on one line, if its integers can be written within a limit on digits. -/
def writeWithin (v : Value) : Except Decimal.LimitFault String :=
  if fits limit v then .ok (render v) else .error .writing

end Writing

end Json
end HaskellTags
