import HaskellTags.Decimal.Shortest

/-!
# The text of a number

Where a number is written positionally and where with an exponent, and how.
-/

namespace HaskellTags
namespace Decimal

/-- How numbers are laid out. -/
structure Layout where
  /-- The least place of the point, counted from the first digit, at which a
  number is written positionally. -/
  leastPoint : Int
  /-- The greatest such place. -/
  greatestPoint : Int
  /-- The least number of digits of an exponent. -/
  exponentWidth : Nat
  /-- The texts of infinity and of no number. -/
  infinity : String
  notANumber : String

/-- Numbers from `0.0001` to below `10 ^ 16` are positional, exponents have a
sign and two digits. -/
def plainLayout : Layout :=
  ⟨-3, 16, 2, "inf", "nan"⟩

namespace Layout

/-- A number of zeros. -/
def zeros (n : Nat) : String :=
  String.ofList (List.replicate n '0')

/-- Digits with the point after the first `point` of them, and one digit at
least on either side of it. -/
def positional (digits : String) (point : Int) : String :=
  if point ≤ 0 then "0." ++ zeros (-point).toNat ++ digits
  else
    let n := point.toNat
    if digits.length ≤ n then digits ++ zeros (n - digits.length) ++ ".0"
    else
      String.ofList (digits.toList.take n) ++ "." ++ String.ofList (digits.toList.drop n)

/-- An exponent with its sign. -/
def exponent (l : Layout) (n : Int) : String :=
  let digits := toString n.natAbs
  (if n < 0 then "e-" else "e+") ++ zeros (l.exponentWidth - digits.length) ++ digits

/-- Digits with the point after the first one and an exponent. -/
def scientific (l : Layout) (digits : String) (point : Int) : String :=
  let tail := digits.toList.drop 1
  let fraction := if tail.isEmpty then "" else "." ++ String.ofList tail
  String.ofList (digits.toList.take 1) ++ fraction ++ l.exponent (point - 1)

/-- The text of a positive decimal. -/
def decimal (l : Layout) (d : Scaled) : String :=
  let digits := toString d.digits
  let point : Int := digits.length + d.exponent
  if l.leastPoint ≤ point ∧ point ≤ l.greatestPoint then positional digits point
  else l.scientific digits point

/-- The text of a number. -/
def render (l : Layout) : Binary64 → String
  | .nan => l.notANumber
  | .infinite negative => (if negative then "-" else "") ++ l.infinity
  | .finite negative significand exponent =>
    let magnitude :=
      if significand = 0 then "0.0" else l.decimal (Shortest.decimal significand exponent)
    (if negative then "-" else "") ++ magnitude

end Layout
end Decimal
end HaskellTags
