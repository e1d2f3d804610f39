import HaskellTags.Value.Basic

/-!
# The order of the members of a set

The members of a set are shown in the order of their places in a table.  Equal
numbers have one residue, whether they are integers or not; the residue of a
member tells its place, and the places to look at next where that is taken.

Members that are no numbers have no residue here.  A set with such a member is
shown in the order in which it was written.
-/

namespace HaskellTags

open Decimal

namespace MemberOrder

section Residues

/-- The modulus of the residues; a power of two has the residue of its exponent
modulo 61. -/
def modulus : Nat := Nat.pow 2 61 - 1

/-- A residue with a sign; minus one is left out. -/
def signedResidue (negative : Bool) (n : Nat) : Int :=
  let residue := Binary64.signed negative (n % modulus)
  if residue = -1 then -2 else residue

/-- The residue of a floating-point number. -/
def numberResidue? : Binary64 → Option Int
  | .nan => none
  | .infinite negative => some (Binary64.signed negative 314159)
  | .finite negative significand exponent =>
    some (signedResidue negative (significand * Nat.pow 2 (exponent.emod 61).toNat))

/-- The residue of a member. -/
def residue? : Scalar → Option Int
  | .bool b => some (if b then 1 else 0)
  | .int n => some (signedResidue (n < 0) n.natAbs)
  | .float x => numberResidue? x
  | _ => none

end Residues

section Places

/-- How many places in a row are looked at where the table is long enough. -/
def stretch : Nat := 10

/-- The size of the table for so many members: a power of two, at most half of
which is filled. -/
def tableSize (members : Nat) : Nat :=
  if members < 5 then 8 else Nat.pow 2 ((2 * members).log2 + 1)

/-- A free place of a table, from a place on.  Where a stretch is taken, a next
place is found from the one before it and the rest of the residue.  The first
argument bounds the steps. -/
def freePlace (size : Nat) (taken : List Nat) : Nat → (place rest : Nat) → Nat
  | 0, place, _ => place
  | bound + 1, place, rest =>
    let width := if place + stretch ≤ size then stretch else 1
    match (List.range width).find? fun k => !taken.contains (place + k) with
    | some k => place + k
    | none =>
      let rest := rest / 32
      freePlace size taken bound ((place * 5 + 1 + rest) % size) rest

/-- The place of a member with a residue where others have places. -/
def placeOf (size : Nat) (taken : List Nat) (residue : Int) : Nat :=
  let bits := (residue.emod (Nat.pow 2 64)).toNat
  freePlace size taken (size + 16) (bits % size) bits

/-- Members with their places, after others. -/
def placed (size : Nat) : List (Nat × Scalar) → List (Int × Scalar) → List (Nat × Scalar)
  | done, [] => done
  | done, (residue, member) :: rest =>
    placed size ((placeOf size (done.map Prod.fst) residue, member) :: done) rest

end Places

end MemberOrder

/-- The members of a set in the order in which they are shown. -/
def inMemberOrder (members : List Scalar) : List Scalar :=
  match members.mapM fun m => (MemberOrder.residue? m).map fun r => (r, m) with
  | none => members
  | some known =>
    let placed := MemberOrder.placed (MemberOrder.tableSize members.length) [] known
    (placed.mergeSort fun a b => a.1 ≤ b.1).map Prod.snd

end HaskellTags
