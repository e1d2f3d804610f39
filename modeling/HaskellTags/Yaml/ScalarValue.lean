import HaskellTags.Text.LowerCase
import HaskellTags.Text.Numeral
import HaskellTags.Value.Basic
import HaskellTags.Yaml.Fault
import HaskellTags.Yaml.Kind

/-!
# Values of YAML scalars

The value that a scalar's text writes for its kind.
-/

namespace HaskellTags
namespace Yaml

open Decimal

section Numbers

/-- A text without the underscores between digits. -/
def dropSpacing (text : String) : List Char :=
  text.toList.filter (· ≠ '_')

/-- Whether characters start with a minus sign. -/
def startsNegative (cs : List Char) : Bool :=
  cs.head? == some '-'

/-- The value of a digit in some base. -/
def digitIn? (base : Nat) (ch : Char) : Option Nat :=
  let value :=
    if ch.isDigit then ch.toNat - '0'.toNat
    else if ch.isLower then ch.toNat - 'a'.toNat + 10
    else if ch.isUpper then ch.toNat - 'A'.toNat + 10
    else base
  if value < base then some value else none

/-- The letter that marks a base, if one does. -/
def baseLetter : Nat → Option Char
  | 2 => some 'b'
  | 8 => some 'o'
  | 16 => some 'x'
  | _ => none

/-- Digits without the mark of their base. -/
def dropBase (base : Nat) : List Char → List Char
  | '0' :: letter :: rest =>
    if baseLetter base = some letter.toLower then rest else '0' :: letter :: rest
  | cs => cs

/-- Check that digits are not too many to be read; only decimal ones can be. -/
def checkDigits (base : Nat) (digits : List Char) : Except ScalarFault Unit :=
  let count := (digits.takeWhile Char.isDigit).length
  if base = 10 ∧ digitLimit < count then .error (.limit (.reading count)) else .ok ()

/-- The integer that a text writes in some base. -/
def integerIn (base : Nat) (text : List Char) : Except ScalarFault Int := do
  let bare := Text.numeralChars text
  let digits := dropBase base (dropSign bare)
  checkDigits base digits
  let value := digits.foldl
    (fun n? ch => do return (← n?) * base + (← digitIn? base ch)) (some 0)
  match value, digits with
  | some n, _ :: _ => return Binary64.signed (startsNegative bare) n
  | _, _ => throw (.integer base (String.ofList text))

/-- The integer of a scalar. -/
def integer (text : String) : Except ScalarFault Int := do
  let spelled := dropSpacing text
  if spelled.isEmpty then throw .empty
  let size ← match dropSign spelled with
    | [] => throw .empty
    | ['0'] => pure 0
    | '0' :: 'b' :: digits => integerIn 2 digits
    | '0' :: 'x' :: digits => integerIn 16 digits
    | '0' :: digits => integerIn 8 ('0' :: digits)
    | cs =>
      if cs.contains ':' then do
        let parts ← (Text.splitWhen (· == ':') cs).mapM (integerIn 10)
        pure (parts.foldl (fun total part => total * 60 + part) 0)
      else integerIn 10 cs
  return if startsNegative spelled then -size else size

/-- The floating-point number that characters write in decimal. -/
def decimal? (cs : List Char) : Option Binary64 := do
  let whole := cs.takeWhile Char.isDigit
  let rest := cs.drop whole.length
  let fraction := match rest with
    | '.' :: rest => rest.takeWhile Char.isDigit
    | _ => []
  let rest := match rest with
    | '.' :: rest => rest.drop fraction.length
    | _ => rest
  if whole.isEmpty && fraction.isEmpty then none
  let (exponent, rest) := Json.takeExponent rest
  if rest.isEmpty then
    some (Binary64.ofDecimal false (Json.digitsValue (whole ++ fraction))
      (exponent.getD 0 - fraction.length))
  else none

/-- The floating-point number that a text in lower case writes. -/
def binaryOf (text : List Char) : Except ScalarFault Binary64 :=
  let trimmed := Text.numeralChars text
  let bare := dropSign trimmed
  let size :=
    if bare = "inf".toList || bare = "infinity".toList then some (.infinite false)
    else if bare = "nan".toList then some .nan
    else decimal? bare
  match size with
  | some x => .ok (if startsNegative trimmed then x.neg else x)
  | none => .error (.number (String.ofList text))

/-- A total and numbers, the first with a weight and each other with sixty times
the weight of the one before it. -/
def addSixties (total : Binary64) (weight : Nat) : List Binary64 → Except ScalarFault Binary64
  | [] => .ok total
  | part :: rest =>
    match Binary64.ofNat? weight with
    | some w => addSixties (total.add (part.mul w)) (weight * 60) rest
    | none => .error .weight

/-- The characters of a number without a sign, in lower case. -/
def numberWord (spelled : List Char) : List Char :=
  dropSign (Text.lower (String.ofList spelled)).toList

/-- Whether a scalar has the word for what is no number. -/
def isNanWord (text : String) : Bool :=
  numberWord (dropSpacing text) = ".nan".toList

/-- The floating-point number of a scalar. -/
def number (text : String) : Except ScalarFault Binary64 := do
  let spelled := dropSpacing text
  if spelled.isEmpty then throw .empty
  let cs := numberWord spelled
  let size ←
    if cs = ".inf".toList then pure (.infinite false)
    else if cs = ".nan".toList then pure .nan
    else if cs.contains ':' then do
      let parts ← (Text.splitWhen (· == ':') cs).mapM binaryOf
      addSixties (.zero false) 1 parts.reverse
    else binaryOf cs
  return if startsNegative spelled then size.neg else size

end Numbers

section Others

/-- The truth value of a scalar. -/
def truth (text : String) : Except ScalarFault Bool :=
  let word := Text.lower text
  match truthWords.lookup word with
  | some b => .ok b
  | none => .error (.truth word)

/-- Six digits of a fraction of a second. -/
def microseconds (fraction : List Char) : Nat :=
  Json.digitsValue ((fraction ++ List.replicate 6 '0').take 6)

/-- The minutes from universal time that a zone writes. -/
def zoneMinutes : Option Char × List Char × List Char → Int
  | (none, _, _) => 0
  | (some sign, hours, minutes) =>
    Binary64.signed (sign == '-') (Json.digitsValue hours * 60 + Json.digitsValue minutes)

/-- The date or moment that its parts write, if the calendar has it. -/
def Calendar.scalar (c : Calendar) : Except CalendarFault Scalar :=
  let date : Date :=
    ⟨Json.digitsValue c.year, Json.digitsValue c.month, Json.digitsValue c.day⟩
  match c.clock with
  | none => do return .date (← date.check)
  | some t => do
    let moment : Moment := {
      date
      hour := Json.digitsValue t.hour
      minute := Json.digitsValue t.minute
      second := Json.digitsValue t.second
      microsecond := microseconds t.fraction
      offset := t.zone.map zoneMinutes }
    return .moment (← moment.check)

/-- The value of a digit in base 64. -/
def sextet? (ch : Char) : Option Nat :=
  if ch.isUpper then some (ch.toNat - 'A'.toNat)
  else if ch.isLower then some (ch.toNat - 'a'.toNat + 26)
  else if ch.isDigit then some (ch.toNat - '0'.toNat + 52)
  else if ch == '+' then some 62
  else if ch == '/' then some 63
  else none

/-- The octets that digits in base 64 write, given the place in the group of
four, the bits left over and the padding there; other characters are passed
over. -/
def sextetOctets : (place left pads : Nat) → List Char → Option Text.Octets
  | place, _, _, [] => if place = 0 then some [] else none
  | place, left, pads, ch :: rest =>
    if ch == '=' then
      if 2 ≤ place then
        if 4 ≤ place + (pads + 1) then some [] else sextetOctets place left (pads + 1) rest
      else sextetOctets place left pads rest
    else
      match sextet? ch, place with
      | none, _ => sextetOctets place left pads rest
      | some n, 0 => sextetOctets 1 n 0 rest
      | some n, 1 => (sextetOctets 2 (n % 16) 0 rest).map (UInt8.ofNat (left * 4 + n / 16) :: ·)
      | some n, 2 => (sextetOctets 3 (n % 4) 0 rest).map (UInt8.ofNat (left * 16 + n / 4) :: ·)
      | some n, _ => (sextetOctets 0 0 0 rest).map (UInt8.ofNat (left * 64 + n) :: ·)

/-- The octets of a scalar. -/
def octets? (text : String) : Option Text.Octets :=
  if text.toList.all fun ch => ch.toNat < 128 then sextetOctets 0 0 0 text.toList else none

end Others

/-- The value of a scalar of a kind. -/
def scalarOf (text : String) : Kind → Except Fault Scalar
  | .null => .ok .null
  | .truth => ((truth text).map Scalar.bool).mapError .scalar
  | .integer => ((integer text).map Scalar.int).mapError .scalar
  | .number => ((number text).map Scalar.float).mapError .scalar
  | .text => .ok (.text text)
  | .timestamp =>
    match calendar? (dropFinalBreak text) with
    | some c => c.scalar.mapError fun fault => .scalar (.calendar fault)
    | none => .error (.scalar .timestamp)
  | .binary =>
    match octets? text with
    | some o => .ok (.octets o)
    | none => .error .malformed
  | _ => .error .malformed

end Yaml
end HaskellTags
