/-!
# Limits on decimal digits

Integers with very many decimal digits are neither read nor written, since the
work grows faster than the number of digits.  The limit can be set otherwise or
lifted, so what reads and writes integers takes it as an argument.
-/

namespace HaskellTags
namespace Decimal

/-- The greatest number of decimal digits that an integer is read from or
written with. -/
def digitLimit : Nat := 4300

/-- An integer with too many decimal digits. -/
inductive LimitFault
  | reading (digits : Nat)
  | writing
  deriving DecidableEq, Repr

/-- The wording of a fault. -/
def LimitFault.message (fault : LimitFault) : String :=
  "Exceeds the limit (" ++ toString digitLimit ++ " digits) for integer string conversion" ++
    (match fault with
      | .reading digits => ": value has " ++ toString digits ++ " digits"
      | .writing => "") ++
    "; use sys.set_int_max_str_digits() to increase the limit"

/-- Whether an integer has no more decimal digits than a limit allows. -/
def isWithin (limit : Option Nat) (n : Int) : Bool :=
  limit.all fun most => (Nat.toDigits 10 n.natAbs).length ≤ most

/-- Whether an integer has few enough digits to be written. -/
def isWritable (n : Int) : Bool :=
  isWithin (some digitLimit) n

end Decimal
end HaskellTags
