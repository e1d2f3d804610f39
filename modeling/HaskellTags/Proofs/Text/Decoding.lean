import HaskellTags.Text.Utf8
import Mathlib.Tactic.SplitIfs

/-!
# Decoding and cutting

Decoding with replacement reads one octet at a time, so an input may be cut
where no character goes on: the text of the whole is then the text of the first
part followed by that of the second.  A cut of this kind is safe even inside an
ill-formed input, since a begun character ends there in either reading.

The decoder's state is a character of which some octets have been read.  The
invariant `Partial.Sound` bounds the octets that may come next and the code
points that the character can still become.  From it follow

* `decodeChars_append`: decoding goes over a cut;
* `decodeChars_append_cons`: it may be cut at an ASCII octet, such as a space or a
  line feed;
* `exists_octet_of_mem_decodeChars`: an ASCII character in the text is an octet
  of the input;
* `decodeChars_eq_nil_iff`: only the empty input has no text.
-/

namespace HaskellTags
namespace Text

section States

/-- The least code point that a begun character can still become. -/
def Partial.least (p : Partial) : Nat :=
  (p.value * 64 + (p.low.toNat - 0x80)) * Nat.pow 64 (p.missing - 1)

/-- A bound that the code points of a begun character do not reach. -/
def Partial.bound (p : Partial) : Nat :=
  (p.value * 64 + (p.high.toNat - 0x80) + 1) * Nat.pow 64 (p.missing - 1)

/-- A begun character goes on with continuation octets and becomes a character
outside ASCII. -/
structure Partial.Sound (p : Partial) : Prop where
  low_ge : 0x80 ≤ p.low.toNat
  high_le : p.high.toNat ≤ 0xBF
  least_ge : 0x80 ≤ p.least
  /-- The code points lie on one side of the surrogates. -/
  valid : p.bound ≤ 0xD800 ∨ 0xE000 ≤ p.least ∧ p.bound ≤ 0x110000

/-- Whatever character has been begun, it is sound. -/
def SoundPending (pending : Option Partial) : Prop :=
  ∀ p ∈ pending, p.Sound

theorem soundPending_none :
    SoundPending none := by
  intro p hp
  cases hp

theorem soundPending_some
    {p : Partial}
    (hp : p.Sound) :
    SoundPending (some p) := by
  intro q hq
  cases hq
  exact hp

/-- What an octet does between characters: it is one, it is ill formed, or it
begins a sound one. -/
theorem startStep_cases
    (octet : UInt8) :
    (octet.toNat < 0x80 ∧
        startStep octet = ⟨[.char (Char.ofNat octet.toNat)], none⟩) ∨
      startStep octet = ⟨[.bad [octet] .start], none⟩ ∨
      ∃ p : Partial, p.Sound ∧ startStep octet = ⟨[], some p⟩ := by
  have hsize : octet.toNat < 256 := octet.toNat_lt
  simp only [startStep]
  by_cases hascii : octet.toNat < 0x80
  · exact Or.inl ⟨hascii, if_pos hascii⟩
  rw [if_neg hascii]
  right
  by_cases hstray : octet.toNat < 0xC2
  · exact Or.inl (if_pos hstray)
  rw [if_neg hstray]
  -- from here on, one case for each row of the table of well-formed sequences
  by_cases htwo : octet.toNat < 0xE0
  · refine Or.inr ⟨_, ?_, if_pos htwo⟩
    constructor <;>
      simp only [Partial.least, Partial.bound, Nat.pow_eq, UInt8.reduceToNat] <;>
      omega
  rw [if_neg htwo]
  by_cases hE0 : octet.toNat = 0xE0
  · refine Or.inr ⟨_, ?_, if_pos hE0⟩
    constructor <;>
      simp only [Partial.least, Partial.bound, Nat.pow_eq, UInt8.reduceToNat] <;>
      omega
  rw [if_neg hE0]
  by_cases hED : octet.toNat = 0xED
  · refine Or.inr ⟨_, ?_, if_pos hED⟩
    constructor <;>
      simp only [Partial.least, Partial.bound, Nat.pow_eq, UInt8.reduceToNat] <;>
      omega
  rw [if_neg hED]
  by_cases hthree : octet.toNat < 0xF0
  · refine Or.inr ⟨_, ?_, if_pos hthree⟩
    constructor <;>
      simp only [Partial.least, Partial.bound, Nat.pow_eq, UInt8.reduceToNat] <;>
      omega
  rw [if_neg hthree]
  by_cases hF0 : octet.toNat = 0xF0
  · refine Or.inr ⟨_, ?_, if_pos hF0⟩
    constructor <;>
      simp only [Partial.least, Partial.bound, Nat.pow_eq, UInt8.reduceToNat] <;>
      omega
  rw [if_neg hF0]
  by_cases hfour : octet.toNat < 0xF4
  · refine Or.inr ⟨_, ?_, if_pos hfour⟩
    constructor <;>
      simp only [Partial.least, Partial.bound, Nat.pow_eq, UInt8.reduceToNat] <;>
      omega
  rw [if_neg hfour]
  by_cases hF4 : octet.toNat = 0xF4
  · refine Or.inr ⟨_, ?_, if_pos hF4⟩
    constructor <;>
      simp only [Partial.least, Partial.bound, Nat.pow_eq, UInt8.reduceToNat] <;>
      omega
  rw [if_neg hF4]
  exact Or.inl rfl

/-- Every octet that begins a character begins a sound one. -/
theorem startStep_sound
    (octet : UInt8) :
    SoundPending (startStep octet).pending := by
  rcases startStep_cases octet with ⟨_, h⟩ | h | ⟨p, hp, h⟩
  · rw [h]
    exact soundPending_none
  · rw [h]
    exact soundPending_none
  · rw [h]
    exact soundPending_some hp

/-- A continued character keeps to the code points that it had before. -/
theorem extend_sound
    {p : Partial} {octet : UInt8}
    (hp : p.Sound)
    (hlow : p.low ≤ octet)
    (hhigh : octet ≤ p.high) :
    SoundPending (p.extend octet).pending := by
  rw [UInt8.le_iff_toNat_le] at hlow hhigh
  obtain ⟨hge, hle, hleast, hvalid⟩ := hp
  simp only [Partial.extend]
  split_ifs with hlast
  · exact soundPending_none
  · obtain ⟨m, hm⟩ : ∃ m, p.missing = m + 2 :=
      ⟨p.missing - 2, by omega⟩
    simp only [Partial.least, Partial.bound, Nat.pow_eq, hm] at hleast hvalid
    have hlower :
        (p.value * 64 + (p.low.toNat - 0x80)) * 64 ^ (m + 1) ≤
          (p.value * 64 + (octet.toNat - 0x80)) * 64 * 64 ^ m := by
      rw [Nat.pow_succ, Nat.mul_assoc, Nat.mul_comm 64]
      exact Nat.mul_le_mul_right _ (by omega)
    have hupper :
        (p.value * 64 + (octet.toNat - 0x80) + 1) * 64 * 64 ^ m ≤
          (p.value * 64 + (p.high.toNat - 0x80) + 1) * 64 ^ (m + 1) := by
      rw [Nat.pow_succ, Nat.mul_assoc, Nat.mul_comm 64]
      exact Nat.mul_le_mul_right _ (by omega)
    have hmissing : p.missing - 1 - 1 = m := by
      omega
    refine soundPending_some ⟨by simp, by simp, ?_, ?_⟩
    · simp only [Partial.least, Nat.pow_eq, hmissing, UInt8.reduceToNat,
        Nat.sub_self, Nat.add_zero]
      exact Nat.le_trans hleast hlower
    · simp only [Partial.least, Partial.bound, Nat.pow_eq, hmissing,
        UInt8.reduceToNat, Nat.sub_self, Nat.add_zero]
      have hwidth :
          (p.value * 64 + (octet.toNat - 0x80)) * 64 + (0xBF - 0x80) + 1 =
            (p.value * 64 + (octet.toNat - 0x80) + 1) * 64 := by
        omega
      rw [hwidth]
      rcases hvalid with hbelow | ⟨habove, hmax⟩
      · exact Or.inl (Nat.le_trans hupper hbelow)
      · exact Or.inr
          ⟨Nat.le_trans habove hlower, Nat.le_trans hupper hmax⟩

/-- The invariant of the decoder's state: every step keeps it. -/
theorem step_sound
    {pending : Option Partial}
    (hpending : SoundPending pending)
    (octet : UInt8) :
    SoundPending (step pending octet).pending := by
  cases pending with
  | none =>
      exact startStep_sound octet
  | some p =>
      have hp : p.Sound := hpending p rfl
      simp only [step]
      split_ifs with hrange
      · exact extend_sound hp hrange.1 hrange.2
      · exact startStep_sound octet

end States

section Characters

theorem toNat_ofNat
    {n : Nat}
    (hn : n.isValidChar) :
    (Char.ofNat n).toNat = n := by
  rw [Char.ofNat, dif_pos hn]
  rfl

/-- An octet that starts a character is the character itself if that is ASCII. -/
theorem toNat_of_mem_startStep
    {octet : UInt8} {c : Char}
    (hc : Piece.char c ∈ (startStep octet).pieces) :
    c.toNat = octet.toNat := by
  rcases startStep_cases octet with ⟨hascii, h⟩ | h | ⟨p, _, h⟩
  · simp only [h, List.mem_singleton, Piece.char.injEq] at hc
    rw [hc]
    exact toNat_ofNat (Or.inl (by omega))
  · simp [h] at hc
  · simp [h] at hc

/-- A character of several octets is not ASCII. -/
theorem le_toNat_of_mem_extend
    {p : Partial} {octet : UInt8} {c : Char}
    (hp : p.Sound)
    (hlow : p.low ≤ octet)
    (hhigh : octet ≤ p.high)
    (hc : Piece.char c ∈ (p.extend octet).pieces) :
    0x80 ≤ c.toNat := by
  rw [UInt8.le_iff_toNat_le] at hlow hhigh
  obtain ⟨hge, hle, hleast, hvalid⟩ := hp
  simp only [Partial.extend] at hc
  split_ifs at hc with hlast
  · have hmissing : p.missing - 1 = 0 := by
      omega
    simp only [Partial.least, Partial.bound, Nat.pow_eq, hmissing,
      Nat.pow_zero, Nat.mul_one] at hleast hvalid
    have hvalue :
        Nat.isValidChar (p.value * 64 + (octet.toNat - 0x80)) := by
      unfold Nat.isValidChar
      omega
    simp at hc
    rw [hc, toNat_ofNat hvalue]
    omega
  · simp at hc

/-- An ASCII character that ends at an octet is that octet. -/
theorem toNat_of_mem_step
    {pending : Option Partial} {octet : UInt8} {c : Char}
    (hpending : SoundPending pending)
    (hc : Piece.char c ∈ (step pending octet).pieces)
    (hascii : c.toNat < 0x80) :
    c.toNat = octet.toNat := by
  cases pending with
  | none =>
      exact toNat_of_mem_startStep hc
  | some p =>
      have hp : p.Sound := hpending p rfl
      simp only [step] at hc
      split_ifs at hc with hrange
      · have hge := le_toNat_of_mem_extend hp hrange.1 hrange.2 hc
        omega
      · simp only [List.mem_cons, reduceCtorEq, false_or] at hc
        exact toNat_of_mem_startStep hc

/-- An ASCII character in the pieces of an input is an octet of the input. -/
theorem exists_octet_of_mem_piecesFrom
    {pending : Option Partial} {source : Octets} {c : Char}
    (hpending : SoundPending pending)
    (hc : Piece.char c ∈ piecesFrom pending source)
    (hascii : c.toNat < 0x80) :
    ∃ octet ∈ source, c.toNat = octet.toNat := by
  induction source generalizing pending with
  | nil =>
      cases pending <;> simp [piecesFrom] at hc
  | cons octet rest ih =>
      simp only [piecesFrom, List.mem_append] at hc
      rcases hc with hhere | hlater
      · exact ⟨octet, by simp, toNat_of_mem_step hpending hhere hascii⟩
      · obtain ⟨o, ho, heq⟩ := ih (step_sound hpending octet) hlater
        exact ⟨o, List.mem_cons_of_mem _ ho, heq⟩

/-- An ASCII character in the text of an input is an octet of the input. -/
theorem exists_octet_of_mem_decodeChars
    {source : Octets} {c : Char}
    (hc : c ∈ decodeChars source)
    (hascii : c.toNat < 0x80) :
    ∃ octet ∈ source, c.toNat = octet.toNat := by
  simp only [decodeChars, List.mem_map] at hc
  obtain ⟨piece, hpiece, hshown⟩ := hc
  cases piece with
  | char d =>
      cases hshown
      exact exists_octet_of_mem_piecesFrom soundPending_none hpiece hascii
  | bad octets fault =>
      subst hshown
      exact absurd hascii (by simp [Piece.shown, replacement])

/-- A begun character leaves at least one piece. -/
theorem piecesFrom_some_ne_nil
    (p : Partial)
    (source : Octets) :
    piecesFrom (some p) source ≠ [] := by
  induction source generalizing p with
  | nil =>
      simp [piecesFrom]
  | cons octet rest ih =>
      simp only [piecesFrom, step, Partial.extend]
      split_ifs <;> simp [ih]

/-- Only the empty input has no text. -/
theorem decodeChars_eq_nil_iff
    {source : Octets} :
    decodeChars source = [] ↔ source = [] := by
  constructor
  · intro h
    cases source with
    | nil =>
        rfl
    | cons octet rest =>
        simp only [decodeChars, List.map_eq_nil_iff, pieces, piecesFrom,
          step] at h
        rcases startStep_cases octet with ⟨_, hs⟩ | hs | ⟨p, _, hs⟩ <;>
          simp [hs, piecesFrom_some_ne_nil] at h
  · rintro rfl
    rfl

end Characters

section Cuts

/-- Whether an octet continues a character. -/
def isContinuation (octet : UInt8) : Bool :=
  0x80 ≤ octet && octet ≤ 0xBF

/-- An input does not start in the middle of a character. -/
def StartsAfresh (source : Octets) : Prop :=
  ∀ octet ∈ source.head?, isContinuation octet = false

/-- At an octet that continues no character, a begun one ends. -/
theorem step_of_not_continuation
    {p : Partial} {octet : UInt8}
    (hp : p.Sound)
    (hoctet : isContinuation octet = false) :
    step (some p) octet =
      ⟨.bad p.read .continuation :: (startStep octet).pieces,
        (startStep octet).pending⟩ := by
  have hout : ¬ (p.low ≤ octet ∧ octet ≤ p.high) := by
    rintro ⟨hlow, hhigh⟩
    have hge := hp.low_ge
    have hle := hp.high_le
    simp only [UInt8.le_iff_toNat_le] at hlow hhigh
    simp only [isContinuation, UInt8.le_iff_toNat_le,
      UInt8.reduceToNat, Bool.and_eq_false_iff, decide_eq_false_iff_not] at hoctet
    omega
  simp only [step, if_neg hout]

/-- After a cut the decoder starts anew, whatever it had begun before. -/
theorem shown_piecesFrom_append
    {pending : Option Partial}
    (hpending : SoundPending pending)
    (before : Octets)
    {after : Octets}
    (hafter : StartsAfresh after) :
    (piecesFrom pending (before ++ after)).map Piece.shown =
      (piecesFrom pending before).map Piece.shown ++ decodeChars after := by
  induction before generalizing pending with
  | nil =>
      cases pending with
      | none =>
          simp [piecesFrom, decodeChars, pieces]
      | some p =>
          cases after with
          | nil =>
              simp [piecesFrom, decodeChars, pieces]
          | cons octet rest =>
              have hoctet : isContinuation octet = false :=
                hafter octet rfl
              have hfresh : step none octet = startStep octet := rfl
              simp [piecesFrom, decodeChars, pieces, hfresh,
                step_of_not_continuation (hpending p rfl) hoctet,
                Piece.shown]
  | cons octet rest ih =>
      simp only [List.cons_append, piecesFrom, List.map_append, List.append_assoc]
      rw [ih (step_sound hpending octet)]

/-- Decoding goes over a cut at which no character goes on. -/
theorem decodeChars_append
    (before : Octets)
    {after : Octets}
    (hafter : StartsAfresh after) :
    decodeChars (before ++ after) =
      decodeChars before ++ decodeChars after :=
  shown_piecesFrom_append soundPending_none before hafter

/-- An ASCII octet ends whatever stands before it and is a character of its own. -/
theorem decodeChars_append_cons
    (before after : Octets)
    {octet : UInt8}
    (hoctet : octet.toNat < 0x80) :
    decodeChars (before ++ octet :: after) =
      decodeChars before ++ Char.ofNat octet.toNat :: decodeChars after := by
  have hfresh : StartsAfresh (octet :: after) := by
    intro first hfirst
    cases hfirst
    simp only [isContinuation, UInt8.le_iff_toNat_le, UInt8.reduceToNat,
      Bool.and_eq_false_iff, decide_eq_false_iff_not]
    omega
  have hstart : decodeChars (octet :: after) =
      Char.ofNat octet.toNat :: decodeChars after := by
    simp [decodeChars, pieces, piecesFrom, step, startStep, hoctet, Piece.shown]
  rw [decodeChars_append before hfresh, hstart]

end Cuts

section Encoding

theorem octetsOf_injective :
    Function.Injective octetsOf := by
  intro s t h
  rw [← String.toByteArray_inj, ← String.utf8Encode_toList,
    ← String.utf8Encode_toList]
  exact congrArg List.toByteArray h

/-- An octet below 0x80 stands for the character of its number, and for no other. -/
theorem toNat_of_mem_utf8EncodeChar
    {c : Char} {octet : UInt8}
    (hoctet : octet.toNat < 0x80)
    (hmem : octet ∈ String.utf8EncodeChar c) :
    c.toNat = octet.toNat := by
  have hval : c.val.toNat = c.toNat := rfl
  unfold String.utf8EncodeChar at hmem
  rw [hval] at hmem
  dsimp only at hmem
  split at hmem
  · rw [List.mem_singleton.1 hmem, UInt8.toNat_ofNat']
    omega
  -- every octet of a longer character has its highest bit set
  · split at hmem
    · simp only [List.mem_cons, List.not_mem_nil, or_false] at hmem
      rcases hmem with rfl | rfl <;> rw [UInt8.toNat_ofNat'] at hoctet <;> omega
    · split at hmem
      · simp only [List.mem_cons, List.not_mem_nil, or_false] at hmem
        rcases hmem with rfl | rfl | rfl <;> rw [UInt8.toNat_ofNat'] at hoctet <;> omega
      · simp only [List.mem_cons, List.not_mem_nil, or_false] at hmem
        rcases hmem with rfl | rfl | rfl | rfl <;> rw [UInt8.toNat_ofNat'] at hoctet <;> omega

end Encoding

end Text
end HaskellTags
