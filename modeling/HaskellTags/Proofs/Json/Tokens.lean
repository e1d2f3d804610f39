import HaskellTags.Json.Reader
import HaskellTags.Json.Writer
import HaskellTags.Proofs.Text.Digits

/-!
# Texts and numbers in JSON

A text in quotes is read back character by character, since the reader undoes
every escape before it looks at the next character.  An integer is read up to
the first character that cannot continue it, and in a text that was written this
is a comma or a closing bracket.
-/

namespace HaskellTags
namespace Json

open Text

section Characters

theorem readText_skip
    (opening : Nat)
    (passed rest : List Char)
    (p : Nat)
    (read : List Char) :
    readText opening (passed ++ rest) passed.length p read =
      readText opening rest 0 (p + passed.length) read := by
  induction passed generalizing p with
  | nil =>
      rfl
  | cons c passed ih =>
      have hstep :
          readText opening (c :: (passed ++ rest)) (passed.length + 1) p read =
            readText opening (passed ++ rest) passed.length (p + 1) read := rfl
      have hposition : p + 1 + passed.length = p + (c :: passed).length := by
        rw [List.length_cons]
        omega
      rw [List.cons_append, List.length_cons, hstep, ih, hposition]
      rfl

theorem readEscape_letter
    {c shown : Char}
    (hletter : letterChar? c = some shown)
    (opening p : Nat)
    (rest : List Char) :
    readEscape opening p (c :: rest) = .ok (shown, 1) := by
  have hu : c ≠ 'u' := by
    rintro rfl
    cases hletter
  unfold readEscape
  split
  · contradiction
  · simp_all
  · simp_all
  · simp_all

/-- The last digits of a small number are read as this number. -/
theorem exists_hexQuad
    {n : Nat}
    (hn : n < 0x20) :
    ∃ a b c d : Char, hexDigits 4 n = [a, b, c, d] ∧ hexQuad? a b c d = some n := by
  have hread :
      ∀ n < 0x20,
        hexQuad? (Nat.digitChar (n / 16 / 16 / 16 % 16)) (Nat.digitChar (n / 16 / 16 % 16))
          (Nat.digitChar (n / 16 % 16)) (Nat.digitChar (n % 16)) = some n := by
    decide
  exact ⟨_, _, _, _, rfl, hread n hn⟩

theorem readEscape_hexDigits
    {c : Char}
    (hc : c.toNat < 0x20)
    (opening p : Nat)
    {rest : List Char}
    (hrest : rest ≠ []) :
    readEscape opening p ('u' :: hexDigits 4 c.toNat ++ rest) = .ok (c, 5) := by
  obtain ⟨a, b, d, e, hdigits, hquad⟩ := exists_hexQuad hc
  have hhigh : isHighUnit c.toNat = false := by
    simp only [isHighUnit, Bool.and_eq_false_iff, decide_eq_false_iff_not]
    omega
  have hlow : isLowUnit c.toNat = false := by
    simp only [isLowUnit, Bool.and_eq_false_iff, decide_eq_false_iff_not]
    omega
  have hunit : unitChar c.toNat = c := by
    simp [unitChar, hhigh, hlow]
  rw [hdigits]
  simp [readEscape, hrest, hquad, hhigh, hunit]

theorem readText_escape
    {opening p : Nat} {c : Char} {rest : List Char}
    (passed : List Char)
    (hescape : readEscape opening p (passed ++ rest) = .ok (c, passed.length))
    (read : List Char) :
    readText opening ('\\' :: (passed ++ rest)) 0 p read =
      readText opening rest 0 (p + 1 + passed.length) (c :: read) := by
  have hbackslash : '\\' ≠ '"' := by decide
  rw [← readText_skip, readText, if_neg hbackslash, if_pos rfl, hescape]

/-- An escaped character is read as what it stands for, if the text goes on. -/
theorem readText_escapedChar
    (opening : Nat)
    (c : Char)
    {rest : List Char}
    (hrest : rest ≠ [])
    (p : Nat)
    (read : List Char) :
    ∃ q : Nat,
      readText opening (escapedChar c ++ rest) 0 p read =
        readText opening rest 0 q (c :: read) := by
  have hletter :
      ∀ letter : Char, letterChar? letter = some c →
        ∃ q : Nat,
          readText opening (['\\', letter] ++ rest) 0 p read =
            readText opening rest 0 q (c :: read) :=
    fun letter h => ⟨_, readText_escape [letter] (readEscape_letter h _ _ _) read⟩
  unfold escapedChar
  split
  · exact hletter '"' rfl
  · exact hletter '\\' rfl
  · exact hletter 'n' rfl
  · exact hletter 'r' rfl
  · exact hletter 't' rfl
  · exact hletter 'b' rfl
  · exact hletter 'f' rfl
  · next hquote hbackslash _ _ _ _ _ =>
    by_cases hcontrol : c.toNat < 0x20
    · rw [if_pos hcontrol]
      exact ⟨_, readText_escape _ (readEscape_hexDigits hcontrol opening p hrest) read⟩
    · have hle : ¬ c.toNat ≤ 0x1F := by omega
      refine ⟨p + 1, ?_⟩
      rw [if_neg hcontrol, List.singleton_append, readText, if_neg hquote,
        if_neg hbackslash, if_neg hle]

theorem readText_escapedChars
    (opening : Nat)
    (cs rest : List Char)
    (p : Nat)
    (read : List Char) :
    ∃ q : Nat,
      readText opening (cs.flatMap escapedChar ++ '"' :: rest) 0 p read =
        .ok (String.ofList (read.reverse ++ cs), ⟨rest, q⟩) := by
  induction cs generalizing p read with
  | nil =>
      exact ⟨p + 1, by simp [readText]⟩
  | cons c cs ih =>
      have hrest : cs.flatMap escapedChar ++ '"' :: rest ≠ [] := by simp
      obtain ⟨p', hchar⟩ := readText_escapedChar opening c hrest p read
      obtain ⟨q, hmore⟩ := ih p' (c :: read)
      refine ⟨q, ?_⟩
      rw [List.flatMap_cons, List.append_assoc, hchar, hmore]
      simp

theorem lineFeed_not_mem_escapedChar
    (c : Char) :
    '\n' ∉ escapedChar c := by
  unfold escapedChar
  split
  · decide
  · decide
  · decide
  · decide
  · decide
  · decide
  · decide
  · next _ _ hfeed _ _ _ _ =>
    split
    · next hcontrol =>
      have hdigits : ∀ n < 0x20, '\n' ∉ '\\' :: 'u' :: hexDigits 4 n := by decide
      exact hdigits c.toNat hcontrol
    · rw [List.mem_singleton]
      exact fun h => hfeed h.symm

end Characters

section Numbers

/-- A text that ends or goes on after a value. -/
def Closes (rest : List Char) : Prop :=
  ∀ c ∈ rest.head?, c = ',' ∨ c = ']' ∨ c = '\x7d'

theorem Closes.cons
    {c : Char}
    (hc : c = ',' ∨ c = ']' ∨ c = '\x7d')
    (rest : List Char) :
    Closes (c :: rest) := by
  rintro _ ⟨⟩
  exact hc

theorem Closes.takeWhile_isDigit
    {rest : List Char}
    (h : Closes rest) :
    rest.takeWhile Char.isDigit = [] := by
  cases rest with
  | nil =>
      rfl
  | cons c rest =>
      rcases h c rfl with rfl | rfl | rfl <;> rfl

theorem Closes.takeFraction
    {rest : List Char}
    (h : Closes rest) :
    takeFraction rest = ([], rest) := by
  cases rest with
  | nil =>
      rfl
  | cons c rest =>
      rcases h c rfl with rfl | rfl | rfl <;> rfl

theorem Closes.takeExponent
    {rest : List Char}
    (h : Closes rest) :
    takeExponent rest = (none, rest) := by
  cases rest with
  | nil =>
      rfl
  | cons c rest =>
      rcases h c rfl with rfl | rfl | rfl <;> rfl

theorem takeWhole_toDigits
    (n : Nat)
    {rest : List Char}
    (hrest : Closes rest) :
    takeWhole (Nat.toDigits 10 n ++ rest) = Nat.toDigits 10 n := by
  by_cases hn : n = 0
  · rw [hn]
    rfl
  · have hhead := head?_toDigits (Nat.pos_of_ne_zero hn)
    unfold takeWhole
    split
    · next tail htext =>
      have hzero : (Nat.toDigits 10 n ++ rest).head? = some '0' := by
        rw [htext]
        rfl
      exact absurd (by simpa using hzero) hhead
    · rw [List.takeWhile_append_of_pos fun c hc => isDigit_of_mem_toDigits hc,
        hrest.takeWhile_isDigit, List.append_nil]

theorem digitsValue_toDigits
    (n : Nat) :
    digitsValue (Nat.toDigits 10 n) = n := by
  have hfold :
      ∀ digits : List Char, digitsValue digits = Nat.ofDigitChars 10 digits 0 := by
    intro digits
    simp only [digitsValue, Nat.ofDigitChars, Nat.mul_comm 10]
  rw [hfold]
  exact Nat.ofDigitChars_toDigits (by decide) (by decide)

theorem takeNumeral_toString
    (n : Int)
    {rest : List Char}
    (hrest : Closes rest) :
    takeNumeral ((toString n).toList ++ rest) =
      some (⟨decide (n < 0), Nat.toDigits 10 n.natAbs, [], none⟩, rest) := by
  have hne : (Nat.toDigits 10 n.natAbs).isEmpty = false :=
    List.isEmpty_eq_false_iff.2 Nat.toDigits_ne_nil
  rw [toList_toString_int]
  by_cases hsign : 0 ≤ n
  · have hminus : (Nat.toDigits 10 n.natAbs).head? ≠ some '-' := by
      intro hhead
      exact absurd (isDigit_of_mem_toDigits (List.mem_of_head? hhead)) (by decide)
    have habs : n.toNat = n.natAbs := by omega
    have hnonneg : ¬ n < 0 := by omega
    rw [if_pos hsign, habs]
    simp [takeNumeral, hminus, takeWhole_toDigits _ hrest, hne, hrest.takeFraction,
      hrest.takeExponent, hnonneg]
  · have habs : (-n).toNat = n.natAbs := by omega
    have hnegative : n < 0 := by omega
    rw [if_neg hsign, habs]
    simp [takeNumeral, takeWhole_toDigits _ hrest, hne, hrest.takeFraction,
      hrest.takeExponent, hnegative]

theorem value_of_isWithin
    {limit : Option Nat} {n : Int}
    (hn : Decimal.isWithin limit n = true) :
    Numeral.value limit ⟨decide (n < 0), Nat.toDigits 10 n.natAbs, [], none⟩ =
      .ok (.int n) := by
  have hlimit : limit.any (· < (Nat.toDigits 10 n.natAbs).length) = false := by
    cases limit with
    | none =>
        rfl
    | some most =>
        have hle := of_decide_eq_true hn
        simpa using hle
  have hvalue :
      (if decide (n < 0) = true then -(n.natAbs : Int) else (n.natAbs : Int)) = n := by
    by_cases hsign : n < 0
    · rw [if_pos (decide_eq_true hsign)]
      omega
    · rw [if_neg (by simp [hsign])]
      omega
  simp only [Numeral.value, List.isEmpty_nil, Option.isNone_none, Bool.and_self, if_true,
    hlimit, Bool.false_eq_true, if_false, digitsValue_toDigits, hvalue]

end Numbers

section Atoms

variable (limit : Option Nat)

theorem find?_wordValues_of_isDigit
    {c : Char}
    (hc : c.isDigit = true)
    (rest : List Char) :
    (wordValues.find? fun w => w.1.isPrefixOf (c :: rest)) = none := by
  have hne : ∀ d : Char, d.isDigit = false → (d == c) = false := by
    intro d hd
    rw [beq_eq_false_iff_ne]
    rintro rfl
    rw [hc] at hd
    cases hd
  simp [wordValues, List.isPrefixOf, hne]

theorem find?_wordValues_of_minus
    {c : Char}
    (hc : c.isDigit = true)
    (rest : List Char) :
    (wordValues.find? fun w => w.1.isPrefixOf ('-' :: c :: rest)) = none := by
  have hne : ('I' == c) = false := by
    rw [beq_eq_false_iff_ne]
    rintro rfl
    cases hc
  simp [wordValues, List.isPrefixOf, hne]

theorem find?_wordValues_toString
    (n : Int)
    (rest : List Char) :
    (wordValues.find? fun w => w.1.isPrefixOf ((toString n).toList ++ rest)) = none := by
  rw [toList_toString_int]
  by_cases hsign : 0 ≤ n
  · obtain ⟨c, tail, htext, hc⟩ := exists_toDigits_eq_cons n.toNat
    rw [if_pos hsign, htext]
    exact find?_wordValues_of_isDigit hc (tail ++ rest)
  · obtain ⟨c, tail, htext, hc⟩ := exists_toDigits_eq_cons (-n).toNat
    rw [if_neg hsign, htext]
    exact find?_wordValues_of_minus hc (tail ++ rest)

theorem readAtom_toString
    {n : Int}
    (hn : Decimal.isWithin limit n = true)
    {rest : List Char}
    (hrest : Closes rest)
    (p : Nat) :
    ∃ q : Nat,
      readAtom limit ⟨(toString n).toList ++ rest, p⟩ = .ok (.int n, ⟨rest, q⟩) := by
  simp only [readAtom, find?_wordValues_toString, takeNumeral_toString n hrest,
    value_of_isWithin hn]
  exact ⟨_, rfl⟩

end Atoms

end Json
end HaskellTags
