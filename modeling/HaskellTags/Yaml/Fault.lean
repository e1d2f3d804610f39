import HaskellTags.Decimal.Limit
import HaskellTags.Text.Quoted
import HaskellTags.Value.Basic
import HaskellTags.Value.Timestamp

/-!
# Faults of a YAML text

What a reader of YAML gives for a text: a value, or the reason why there is none.
-/

namespace HaskellTags
namespace Yaml

/-- A scalar that has the form of a type and is no value of it. -/
inductive ScalarFault
  /-- Digits that write no integer in a base. -/
  | integer (base : Nat) (digits : String)
  /-- An integer with too many digits. -/
  | limit (fault : Decimal.LimitFault)
  /-- A text that writes no number. -/
  | number (text : String)
  /-- A number of so many parts that the weight of one is no number. -/
  | weight
  /-- A mapping whose default value is, in the end, itself. -/
  | endless
  /-- A number of which nothing is written. -/
  | empty
  /-- A word that is no truth value. -/
  | truth (word : String)
  /-- A text that writes no date and no moment. -/
  | timestamp
  /-- A mapping where a date or moment is to be written. -/
  | timestampMapping
  /-- A date or moment outside the calendar. -/
  | calendar (fault : CalendarFault)
  /-- An escape of a code point that there is not. -/
  | codePoint
  /-- An escape of a number too large to be looked at as a code point. -/
  | hugeCodePoint
  deriving DecidableEq, Repr

/-- How many characters of a wrong integer are shown, quotes included. -/
def shownDigits : Nat := 200

/-- The wording of a fault. -/
def ScalarFault.message : ScalarFault → String
  | .integer base digits =>
    "invalid literal for int() with base " ++ toString base ++ ": " ++
      String.ofList ((Text.quoted digits).toList.take shownDigits)
  | .limit fault => fault.message
  | .number text => "could not convert string to float: " ++ Text.quoted text
  | .weight => "int too large to convert to float"
  | .endless => "maximum recursion depth exceeded"
  | .empty => "string index out of range"
  | .truth word => Text.quoted word
  | .timestamp => "'NoneType' object has no attribute 'groupdict'"
  | .timestampMapping => "expected string or bytes-like object, got 'list'"
  | .calendar fault => fault.message
  | .codePoint => "chr() arg not in range(0x110000)"
  | .hugeCodePoint => "Python int too large to convert to C int"

/-- Why a text has no value. -/
inductive Fault
  /-- The text is no document, or not one that is accepted here. -/
  | malformed
  /-- A scalar of the document has no value. -/
  | scalar (fault : ScalarFault)
  deriving DecidableEq, Repr

/-- A reader: the value of every text that has one. -/
abbrev Reader := String → Except Fault Value

/-- What is shown of a malformed text; no detail is given. -/
def malformedMessage : String := "<yaml>"

end Yaml
end HaskellTags
