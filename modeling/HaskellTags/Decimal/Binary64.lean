/-!
# Binary64 numbers

Floating-point numbers as exact values: a sign, a significand and a power of
two.  Reading a decimal, adding and multiplying round to the nearest number, a
tie to the even significand, in exact natural arithmetic.
-/

namespace HaskellTags
namespace Decimal

/-- A binary64 number.  A finite one has the value `± significand * 2 ^ exponent`
with a significand below `2 ^ 53` and the least exponent that allows. -/
inductive Binary64
  | nan
  | infinite (negative : Bool)
  | finite (negative : Bool) (significand : Nat) (exponent : Int)
  deriving DecidableEq, Repr

namespace Binary64

/-- The least exponent of a finite number. -/
def leastExponent : Int := -1074

/-- The greatest exponent of a finite number. -/
def greatestExponent : Int := 971

/-- Zero with a sign. -/
def zero (negative : Bool) : Binary64 :=
  .finite negative 0 leastExponent

/-- A quotient rounded to the nearest integer, a tie to the even one. -/
def roundDiv (num den : Nat) : Nat :=
  let quotient := num / den
  let twice := 2 * (num % den)
  if twice < den then quotient
  else if den < twice then quotient + 1
  else if quotient % 2 = 0 then quotient else quotient + 1

/-- The numerator and denominator of `num / (den * 2 ^ exponent)`. -/
def shifted (num den : Nat) (exponent : Int) : Nat × Nat :=
  (num * Nat.pow 2 (-exponent).toNat, den * Nat.pow 2 exponent.toNat)

/-- The exponent at which `num / den` has 53 binary digits, or the least one. -/
def exponentOf (num den : Nat) : Int :=
  let guess : Int := (num.log2 : Int) - den.log2 - 53
  let s := shifted num den guess
  max leastExponent (if s.1 / s.2 < Nat.pow 2 53 then guess else guess + 1)

/-- The number nearest to `± num / den`. -/
def ofRatio (negative : Bool) (num den : Nat) : Binary64 :=
  if num = 0 then zero negative
  else
    let exponent := exponentOf num den
    let s := shifted num den exponent
    let rounded := roundDiv s.1 s.2
    let carried := rounded = Nat.pow 2 53
    let significand := if carried then Nat.pow 2 52 else rounded
    let exponent := if carried then exponent + 1 else exponent
    if greatestExponent < exponent then .infinite negative
    else .finite negative significand exponent

/-- The number nearest to `± digits * 10 ^ exponent`. -/
def ofDecimal (negative : Bool) (digits : Nat) (exponent : Int) : Binary64 :=
  let magnitude : Int := (Nat.toDigits 10 digits).length + exponent
  if digits = 0 ∨ magnitude < -400 then zero negative
  else if 400 < magnitude then .infinite negative
  else ofRatio negative (digits * Nat.pow 10 exponent.toNat) (Nat.pow 10 (-exponent).toNat)

/-- The number with the other sign. -/
def neg : Binary64 → Binary64
  | .nan => .nan
  | .infinite negative => .infinite !negative
  | .finite negative significand exponent => .finite (!negative) significand exponent

/-- A significand with its sign. -/
def signed (negative : Bool) (significand : Nat) : Int :=
  if negative then -(significand : Int) else significand

/-- The number nearest to a sum. -/
def add : Binary64 → Binary64 → Binary64
  | .finite n₁ m₁ e₁, .finite n₂ m₂ e₂ =>
    let e := min e₁ e₂
    let total :=
      signed n₁ (m₁ * Nat.pow 2 (e₁ - e).toNat) + signed n₂ (m₂ * Nat.pow 2 (e₂ - e).toNat)
    let negative := if total = 0 then n₁ && n₂ else decide (total < 0)
    ofRatio negative (total.natAbs * Nat.pow 2 e.toNat) (Nat.pow 2 (-e).toNat)
  | .infinite n₁, .infinite n₂ => if n₁ = n₂ then .infinite n₁ else .nan
  | .nan, _ => .nan
  | _, .nan => .nan
  | .infinite n, _ => .infinite n
  | _, .infinite n => .infinite n

/-- The number nearest to a product. -/
def mul : Binary64 → Binary64 → Binary64
  | .finite n₁ m₁ e₁, .finite n₂ m₂ e₂ =>
    let e := e₁ + e₂
    ofRatio (n₁ != n₂) (m₁ * m₂ * Nat.pow 2 e.toNat) (Nat.pow 2 (-e).toNat)
  | .infinite n₁, .infinite n₂ => .infinite (n₁ != n₂)
  | .infinite n₁, .finite n₂ m _ => if m = 0 then .nan else .infinite (n₁ != n₂)
  | .finite n₁ m _, .infinite n₂ => if m = 0 then .nan else .infinite (n₁ != n₂)
  | .nan, _ => .nan
  | _, .nan => .nan

/-- The number nearest to a natural number, if that is not too large. -/
def ofNat? (n : Nat) : Option Binary64 :=
  match ofRatio false n 1 with
  | .infinite _ => none
  | x => some x

end Binary64
end Decimal
end HaskellTags
