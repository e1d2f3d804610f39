import HaskellTags.Decimal.Limit

/-!
# Decimal digits of integers

An integer is written with its decimal digits, after a sign if it is negative, so
no other character is in its text.  No digits but those of zero start with a
zero.  A limit on the number of digits is a bound on the integer.
-/

namespace HaskellTags
namespace Text

theorem toList_toString_int
    (n : Int) :
    (toString n).toList =
      if 0 ≤ n then Nat.toDigits 10 n.toNat
      else '-' :: Nat.toDigits 10 (-n).toNat := by
  have hrepr : toString n = n.repr := rfl
  rw [hrepr, Int.repr_eq_if]
  split
  · exact Nat.toList_repr
  · rw [String.toList_append, Nat.toList_repr]
    rfl

theorem isDigit_of_mem_toDigits
    {n : Nat} {c : Char}
    (hc : c ∈ Nat.toDigits 10 n) :
    c.isDigit = true :=
  Nat.isDigit_of_mem_toDigits (by decide) (by decide) hc

theorem eq_minus_or_isDigit_of_mem_toString
    {n : Int} {c : Char}
    (hc : c ∈ (toString n).toList) :
    c = '-' ∨ c.isDigit = true := by
  rw [toList_toString_int] at hc
  split at hc
  · exact .inr (isDigit_of_mem_toDigits hc)
  · rcases List.mem_cons.1 hc with hminus | hdigit
    · exact .inl hminus
    · exact .inr (isDigit_of_mem_toDigits hdigit)

theorem not_mem_toString_int
    {c : Char}
    (hminus : c ≠ '-')
    (hdigit : c.isDigit = false)
    (n : Int) :
    c ∉ (toString n).toList := by
  intro hc
  rcases eq_minus_or_isDigit_of_mem_toString hc with heq | hisDigit
  · exact hminus heq
  · rw [hdigit] at hisDigit
    cases hisDigit

theorem exists_toDigits_eq_cons
    (n : Nat) :
    ∃ (c : Char) (rest : List Char),
      Nat.toDigits 10 n = c :: rest ∧ c.isDigit = true := by
  have hne : Nat.toDigits 10 n ≠ [] := Nat.toDigits_ne_nil
  obtain ⟨c, rest, hdigits⟩ := List.exists_cons_of_ne_nil hne
  exact ⟨c, rest, hdigits, isDigit_of_mem_toDigits (hdigits ▸ List.mem_cons_self)⟩

theorem toList_toString_int_ne_nil
    (n : Int) :
    (toString n).toList ≠ [] := by
  rw [toList_toString_int]
  split
  · exact Nat.toDigits_ne_nil
  · exact List.cons_ne_nil _ _

/-- The first character of an integer is none but a sign or a digit. -/
theorem exists_toString_int_eq_cons
    (n : Int) :
    ∃ (c : Char) (rest : List Char),
      (toString n).toList = c :: rest ∧
        ∀ d : Char, d ≠ '-' → d.isDigit = false → c ≠ d := by
  obtain ⟨c, rest, htext⟩ := List.exists_cons_of_ne_nil (toList_toString_int_ne_nil n)
  refine ⟨c, rest, htext, ?_⟩
  rintro d hminus hdigit rfl
  apply not_mem_toString_int hminus hdigit n
  rw [htext]
  exact List.mem_cons_self

theorem head?_toDigits
    {n : Nat}
    (hn : 0 < n) :
    (Nat.toDigits 10 n).head? ≠ some '0' := by
  induction n using Nat.strongRecOn with
  | _ n ih =>
      by_cases hsmall : n < 10
      · have hdigit : ∀ n < 10, 0 < n → [Nat.digitChar n].head? ≠ some '0' := by decide
        rw [Nat.toDigits_of_lt_base hsmall]
        exact hdigit n hsmall hn
      · have hsome : (Nat.toDigits 10 (n / 10)).head?.isSome = true :=
          List.isSome_head?.2 Nat.toDigits_ne_nil
        rw [Nat.toDigits_of_base_le (by decide) (by omega), List.head?_append,
          Option.or_of_isSome hsome]
        exact ih (n / 10) (by omega) (by omega)

end Text

namespace Decimal

theorem isWithin_none
    (n : Int) :
    isWithin none n = true := rfl

theorem isWithin_some_iff
    {most : Nat} {n : Int}
    (hmost : 0 < most) :
    isWithin (some most) n = true ↔ n.natAbs < Nat.pow 10 most := by
  rw [isWithin, Option.all_some, decide_eq_true_iff]
  exact Nat.length_toDigits_le_iff (by decide) hmost

end Decimal
end HaskellTags
