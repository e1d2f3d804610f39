import HaskellTags.Decimal.Layout
import HaskellTags.Decimal.Limit
import HaskellTags.Text.Quoted
import HaskellTags.Value.MemberOrder

/-!
# The text of a value

How values stand in messages: texts in quotes, lists in brackets, mappings in
braces, and the name of a value's type.  A value that holds an integer with too
many digits is not shown.  One of any depth is: how deep a value may be is a matter of
its reader (`Json.depthLimit`), and showing it has no limit of its own.
-/

namespace HaskellTags

open Decimal Text

namespace Scalar

/-- A scalar inside a message. -/
def described : Scalar → String
  | .null => "None"
  | .bool b => if b then "True" else "False"
  | .int n => toString n
  | .float x => plainLayout.render x
  | .text s => quoted s
  | .octets o => quotedOctets o
  | .date d => d.described
  | .moment m => m.described

/-- A scalar as plain text. -/
def plain : Scalar → String
  | .text s => s
  | .date d => d.plain
  | .moment m => m.plain
  | s => s.described

/-- The name of a scalar's type. -/
def typeName : Scalar → String
  | .null => "NoneType"
  | .bool _ => "bool"
  | .int _ => "int"
  | .float _ => "float"
  | .text _ => "str"
  | .octets _ => "bytes"
  | .date _ => "date"
  | .moment _ => "datetime"

/-- Whether a scalar can be shown. -/
def isShowable : Scalar → Bool
  | .int n => isWritable n
  | _ => true

/-- A scalar as plain text, if it can be shown. -/
def shownPlain (s : Scalar) : Except LimitFault String :=
  if s.isShowable then .ok s.plain else .error .writing

end Scalar

namespace Value

mutual

/-- A value inside a message. -/
def described : Value → String
  | .scalar s => s.described
  | .list items => "[" ++ ", ".intercalate (describedItems items) ++ "]"
  | .map entries => "\x7b" ++ ", ".intercalate (describedEntries entries) ++ "\x7d"
  | .set members =>
    if members.isEmpty then "set()"
    else "\x7b" ++ ", ".intercalate ((inMemberOrder members).map Scalar.described) ++ "\x7d"
  | .pair first second => "(" ++ first.described ++ ", " ++ second.described ++ ")"
  | .cycle isMap => if isMap then "\x7b...\x7d" else "[...]"

/-- The items of a list inside a message. -/
def describedItems : List Value → List String
  | [] => []
  | v :: rest => v.described :: describedItems rest

/-- The entries of a mapping inside a message. -/
def describedEntries : List (Scalar × Value) → List String
  | [] => []
  | (k, v) :: rest => (k.described ++ ": " ++ v.described) :: describedEntries rest

end

mutual

/-- Whether a value can be shown. -/
def isShowable : Value → Bool
  | .scalar s => s.isShowable
  | .list items => areShowable items
  | .map entries => areShowableEntries entries
  | .set members => members.all Scalar.isShowable
  | .pair first second => first.isShowable && second.isShowable
  | .cycle _ => true

/-- Whether the items of a list can be shown. -/
def areShowable : List Value → Bool
  | [] => true
  | v :: rest => v.isShowable && areShowable rest

/-- Whether the entries of a mapping can be shown. -/
def areShowableEntries : List (Scalar × Value) → Bool
  | [] => true
  | (k, v) :: rest => k.isShowable && v.isShowable && areShowableEntries rest

end

/-- A value inside a message, if it can be shown. -/
def shown (v : Value) : Except LimitFault String :=
  if v.isShowable then .ok v.described else .error .writing

/-- The name of a value's type. -/
def typeName : Value → String
  | .scalar s => s.typeName
  | .list _ => "list"
  | .map _ => "dict"
  | .set _ => "set"
  | .pair _ _ => "tuple"
  | .cycle isMap => if isMap then "dict" else "list"

end Value

/-- A list of texts inside a message. -/
def describedTexts (texts : List String) : String :=
  (Value.list (texts.map Value.text)).described

end HaskellTags
