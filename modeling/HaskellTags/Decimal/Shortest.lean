import HaskellTags.Decimal.Binary64

/-!
# Shortest decimals

The fewest decimal digits that read back as a given number.  For one, two, ...
seventeen digits the two neighbours of the number on that decimal grid are
tried; the first grid with a neighbour inside the interval that rounds to the
number gives the digits, and of two neighbours inside the nearer one is taken.
-/

namespace HaskellTags
namespace Decimal

/-- A decimal `digits * 10 ^ exponent`. -/
structure Scaled where
  digits : Nat
  exponent : Int
  deriving DecidableEq, Repr

namespace Shortest

/-- A decimal on the grid of `10 ^ t`, on the next grid if it lies there too. -/
def onGrid (a : Nat) (t : Int) : Scaled :=
  if a % 10 = 0 then ⟨a / 10, t + 1⟩ else ⟨a, t⟩

/-- Whether `a * 10 ^ t ≤ b * 2 ^ e`. -/
def atMost (a : Nat) (t : Int) (b : Nat) (e : Int) : Bool :=
  a * Nat.pow 10 t.toNat * Nat.pow 2 (-e).toNat ≤
    b * Nat.pow 2 e.toNat * Nat.pow 10 (-t).toNat

/-- Whether `a * 10 ^ t < b * 2 ^ e`. -/
def below (a : Nat) (t : Int) (b : Nat) (e : Int) : Bool :=
  a * Nat.pow 10 t.toNat * Nat.pow 2 (-e).toNat <
    b * Nat.pow 2 e.toNat * Nat.pow 10 (-t).toNat

/-- Whether `a * 10 ^ t` rounds to `m * 2 ^ e`.  The ends of the interval belong
to it when the significand is even. -/
def roundsTo (m : Nat) (e : Int) (a : Nat) (t : Int) : Bool :=
  let low := if m = Nat.pow 2 52 ∧ Binary64.leastExponent < e then 4 * m - 1 else 4 * m - 2
  let high := 4 * m + 2
  if m % 2 = 0 then !below a t low (e - 2) && atMost a t high (e - 2)
  else !atMost a t low (e - 2) && below a t high (e - 2)

/-- The greatest `t` with `10 ^ t ≤ m * 2 ^ e`. -/
def leading (m : Nat) (e : Int) : Int :=
  match (List.range 640).find? fun (i : Nat) => atMost 1 (310 - (i : Int)) m e with
  | some i => 310 - i
  | none => -330

/-- The part of `m * 2 ^ e` on the grid of `10 ^ t`, rounded down. -/
def gridFloor (m : Nat) (e t : Int) : Nat :=
  m * Nat.pow 2 e.toNat * Nat.pow 10 (-t).toNat /
    (Nat.pow 2 (-e).toNat * Nat.pow 10 t.toNat)

/-- The neighbour on the grid of `10 ^ t` that rounds to `m * 2 ^ e`, the nearer
of two, in a tie the even one. -/
def neighbour (m : Nat) (e t : Int) : Option Nat :=
  let low := gridFloor m e t
  match roundsTo m e low t, roundsTo m e (low + 1) t with
  | true, true =>
    if below (2 * low + 1) t (2 * m) e then some (low + 1)
    else if atMost (2 * low + 1) t (2 * m) e && low % 2 = 1 then some (low + 1)
    else some low
  | true, false => some low
  | false, true => some (low + 1)
  | false, false => none

/-- The shortest decimal of `m * 2 ^ e`, for a positive `m`. -/
def decimal (m : Nat) (e : Int) : Scaled :=
  let top := leading m e
  let found := (List.range 17).findSome? fun (n : Nat) =>
    let t : Int := top - n
    (neighbour m e t).map fun a => onGrid a t
  found.getD ⟨gridFloor m e (top - 16), top - 16⟩

end Shortest
end Decimal
end HaskellTags
