import HaskellTags.Decimal.Binary64
import HaskellTags.Text.Utf8
import HaskellTags.Value.Timestamp

/-!
# Values

The values that a settings file may hold.  A mapping keeps its entries in the
order in which their keys were first written, and has each key once.
-/

namespace HaskellTags

open Decimal Text

/-- A value without parts, which may be a key. -/
inductive Scalar
  | null
  | bool (b : Bool)
  | int (n : Int)
  | float (x : Binary64)
  | text (s : String)
  | octets (o : Octets)
  | date (d : Date)
  | moment (m : Moment)
  deriving DecidableEq, Repr

/-- A value. -/
inductive Value
  | scalar (s : Scalar)
  | list (items : List Value)
  | map (entries : List (Scalar × Value))
  /-- A set of keys. -/
  | set (members : List Scalar)
  /-- A key and a value out of an ordered list of such. -/
  | pair (first second : Value)
  /-- A value inside itself: a mapping, or else a list. -/
  | cycle (isMap : Bool)

namespace Scalar

/-- Whether two floating-point numbers are equal: no number equals itself if it
is none, and the zeros are equal. -/
def sameNumber : Binary64 → Binary64 → Bool
  | .nan, _ => false
  | _, .nan => false
  | .finite _ 0 _, .finite _ 0 _ => true
  | x, y => x = y

/-- Whether an integer has exactly the value of a floating-point number. -/
def isExactly (n : Int) : Binary64 → Bool
  | .finite negative significand exponent =>
    Binary64.signed negative (significand * Nat.pow 2 exponent.toNat) =
      n * Nat.pow 2 (-exponent).toNat
  | _ => false

/-- Whether two scalars are one key. -/
def sameKey : Scalar → Scalar → Bool
  | .int m, .int n => m = n
  | .bool a, .bool b => a = b
  | .int n, .bool b => n = (if b then 1 else 0)
  | .bool b, .int n => n = (if b then 1 else 0)
  | .int n, .float x => isExactly n x
  | .float x, .int n => isExactly n x
  | .bool b, .float x => isExactly (if b then 1 else 0) x
  | .float x, .bool b => isExactly (if b then 1 else 0) x
  | .float x, .float y => sameNumber x y
  | .moment a, .moment b => a.isSame b
  | a, b => a = b

end Scalar

/-- The entries of a mapping. -/
abbrev Entries := List (Scalar × Value)

/-- The entries with a key set: the last value wins, at the key's first place. -/
def Entries.set (key : Scalar) (value : Value) : Entries → Entries
  | [] => [(key, value)]
  | (k, v) :: rest =>
    if k.sameKey key then (k, value) :: rest else (k, v) :: Entries.set key value rest

/-- The entries with each key once. -/
def Entries.ofList (entries : Entries) : Entries :=
  entries.foldl (fun es e => Entries.set e.1 e.2 es) []

namespace Value

/-- The value of nothing. -/
def null : Value := .scalar .null

/-- A text as a value. -/
def text (s : String) : Value := .scalar (.text s)

/-- An integer as a value. -/
def int (n : Int) : Value := .scalar (.int n)

/-- The value under a key of a mapping. -/
def get? (key : String) : Value → Option Value
  | .map entries => (entries.find? fun e => e.1 = .text key).map Prod.snd
  | _ => none

/-- The text that a value is. -/
def text? : Value → Option String
  | .scalar (.text s) => some s
  | _ => none

/-- The integer that a value is. -/
def int? : Value → Option Int
  | .scalar (.int n) => some n
  | _ => none

/-- The truth value that a value is. -/
def bool? : Value → Option Bool
  | .scalar (.bool b) => some b
  | _ => none

/-- The items that a value has. -/
def items? : Value → Option (List Value)
  | .list items => some items
  | _ => none

end Value
end HaskellTags
