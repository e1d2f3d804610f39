import HaskellTags.Proofs.Lists
import HaskellTags.Proofs.Text.Decoding

/-!
# The order of code points

Texts are ordered by their code points, and so are the octets that write them.  A
character is a number spread over octets: the later ones take six bits each, and the
first one takes what is left.  Two characters that need as many octets compare like
their numbers, six bits at a time; otherwise the first octets already tell which one
is greater.

`inLexOrder_octetsOf_iff` carries this over to texts, and `le_iff_inCodeOrder` says that
the library's own order of texts is the same one.
-/

namespace HaskellTags
namespace Text

section Characters

/-- What is left of a number after some octets have taken six bits each. -/
def leftAfter : Nat → Nat → Nat
  | 0, n => n
  | later + 1, n => leftAfter later (n / 64)

/-- A number spread over a first octet with a mark and some later ones. -/
def spread (mark : Nat) : Nat → Nat → Octets
  | 0, n => [UInt8.ofNat (n + mark)]
  | later + 1, n => spread mark later (n / 64) ++ [UInt8.ofNat (n % 64 + 128)]

/-- How many octets follow the first one of a character. -/
def laterOctets (n : Nat) : Nat :=
  if n ≤ 0x7F then 0 else if n ≤ 0x7FF then 1 else if n ≤ 0xFFFF then 2 else 3

/-- The mark in the first octet, by how many octets follow. -/
def firstMark : Nat → Nat
  | 0 => 0
  | 1 => 192
  | 2 => 224
  | _ => 240

/-- The first octet of a character, as a number. -/
def lead (n : Nat) : Nat :=
  leftAfter (laterOctets n) n + firstMark (laterOctets n)

theorem toNat_le
    (c : Char) :
    c.toNat ≤ 0x10FFFF := by
  rcases c.valid with hlow | ⟨-, hhigh⟩
  · exact Nat.le_of_lt (Nat.lt_trans hlow (by decide))
  · exact Nat.le_of_lt_succ hhigh

theorem utf8EncodeChar_eq_spread
    (c : Char) :
    String.utf8EncodeChar c =
      spread (firstMark (laterOctets c.toNat)) (laterOctets c.toNat) c.toNat := by
  have hlimit := toNat_le c
  have hval : c.val.toNat = c.toNat := rfl
  unfold String.utf8EncodeChar laterOctets
  rw [hval]
  dsimp only
  split
  · rfl
  · split
    · have hfirst : c.toNat / 64 % 32 = c.toNat / 64 := Nat.mod_eq_of_lt (by omega)
      simp [spread, firstMark, hfirst]
    · split
      · have hfirst : c.toNat / 4096 % 16 = c.toNat / 4096 := Nat.mod_eq_of_lt (by omega)
        simp [spread, firstMark, hfirst, Nat.div_div_eq_div_mul]
      · have hfirst : c.toNat / 262144 % 8 = c.toNat / 262144 := Nat.mod_eq_of_lt (by omega)
        simp [spread, firstMark, hfirst, Nat.div_div_eq_div_mul]

theorem ofNat_lt_ofNat
    {m n : Nat}
    (h : m < n)
    (hfits : n < 256) :
    UInt8.ofNat m < UInt8.ofNat n := by
  rw [UInt8.lt_iff_toNat_lt, UInt8.toNat_ofNat', UInt8.toNat_ofNat']
  omega

theorem exists_spread_eq_cons
    (mark later n : Nat) :
    ∃ rest, spread mark later n = UInt8.ofNat (leftAfter later n + mark) :: rest := by
  induction later generalizing n with
  | zero =>
      exact ⟨[], rfl⟩
  | succ later ih =>
      obtain ⟨rest, hrest⟩ := ih (n / 64)
      refine ⟨rest ++ [UInt8.ofNat (n % 64 + 128)], ?_⟩
      rw [spread, hrest]
      rfl

/-- Numbers in order, spread over as many octets, are in order. -/
theorem precedes_spread
    {mark later m n : Nat}
    (h : m < n)
    (hfits : leftAfter later n + mark < 256) :
    Lists.Precedes (· < ·) (spread mark later m) (spread mark later n) := by
  induction later generalizing m n with
  | zero =>
      exact ⟨[], _, _, [], [], rfl, rfl,
        ofNat_lt_ofNat (Nat.add_lt_add_right h mark) hfits⟩
  | succ later ih =>
      by_cases hleft : m / 64 = n / 64
      · have hlast : UInt8.ofNat (m % 64 + 128) < UInt8.ofNat (n % 64 + 128) := by
          apply ofNat_lt_ofNat
          · omega
          · omega
        refine ⟨spread mark later (m / 64), _, _, [], [], rfl, ?_, hlast⟩
        rw [spread, hleft]
      · have hbefore : m / 64 < n / 64 := by omega
        obtain ⟨common, x, y, xs, ys, hm, hn, hxy⟩ := ih hbefore hfits
        refine ⟨common, x, y, xs ++ [UInt8.ofNat (m % 64 + 128)],
          ys ++ [UInt8.ofNat (n % 64 + 128)], ?_, ?_, hxy⟩
        · rw [spread, hm, List.append_assoc, List.cons_append]
        · rw [spread, hn, List.append_assoc, List.cons_append]

theorem lead_lt
    {n : Nat}
    (h : n ≤ 0x10FFFF) :
    lead n < 256 := by
  unfold lead laterOctets
  grind [leftAfter, firstMark]

/-- A greater character that needs more octets has a greater first octet. -/
theorem lead_lt_lead
    {m n : Nat}
    (h : m < n)
    (hne : laterOctets m ≠ laterOctets n) :
    lead m < lead n := by
  unfold lead
  unfold laterOctets at hne ⊢
  grind [leftAfter, firstMark]

/-- Characters in order have octets in order, and none are the start of the others. -/
theorem precedes_utf8EncodeChar
    {c d : Char}
    (h : c.toNat < d.toNat) :
    Lists.Precedes (· < ·) (String.utf8EncodeChar c) (String.utf8EncodeChar d) := by
  have hfits : lead d.toNat < 256 := lead_lt (toNat_le d)
  rw [utf8EncodeChar_eq_spread, utf8EncodeChar_eq_spread]
  by_cases hsame : laterOctets c.toNat = laterOctets d.toNat
  · rw [hsame]
    exact precedes_spread h hfits
  · obtain ⟨later, hc⟩ := exists_spread_eq_cons (firstMark (laterOctets c.toNat))
      (laterOctets c.toNat) c.toNat
    obtain ⟨later', hd⟩ := exists_spread_eq_cons (firstMark (laterOctets d.toNat))
      (laterOctets d.toNat) d.toNat
    have hfirst := ofNat_lt_ofNat (lead_lt_lead h hsame) hfits
    exact ⟨[], _, _, later, later', hc, hd, hfirst⟩

end Characters

section Texts

/-- The order of texts by code points: one text is the start of the other, or it has
the smaller code point where they first differ. -/
def InCodeOrder (s t : String) : Prop :=
  Lists.InLexOrder (fun c d : Char => c.toNat < d.toNat) s.toList t.toList

theorem inCodeOrder_refl
    (s : String) :
    InCodeOrder s s :=
  .inl (List.prefix_refl _)

theorem inCodeOrder_total
    (s t : String) :
    InCodeOrder s t ∨ InCodeOrder t s := by
  apply Lists.inLexOrder_total
  intro c d
  rcases Nat.lt_trichotomy c.toNat d.toNat with h | h | h
  · exact .inl h
  · exact .inr (.inl (Char.toNat_inj.1 h))
  · exact .inr (.inr h)

/-- The octets of texts are in order exactly if their code points are. -/
theorem inLexOrder_octetsOf_iff
    {s t : String} :
    Lists.InLexOrder (· < ·) (octetsOf s) (octetsOf t) ↔ InCodeOrder s t := by
  have hkeeps :
      ∀ {u v : String}, InCodeOrder u v →
        Lists.InLexOrder (· < ·) (octetsOf u) (octetsOf v) := by
    intro u v h
    exact Lists.InLexOrder.flatMap (fun c d hcd => precedes_utf8EncodeChar hcd) h
  constructor
  · intro h
    rcases inCodeOrder_total s t with hst | hts
    · exact hst
    · have hsame : octetsOf s = octetsOf t :=
        Lists.inLexOrder_antisymm (fun _ _ => UInt8.lt_asymm) h (hkeeps hts)
      rw [octetsOf_injective hsame]
      exact inCodeOrder_refl t
  · exact hkeeps

theorem not_lt_iff_inLexOrder
    {xs ys : List Char} :
    ¬ ys < xs ↔ Lists.InLexOrder (fun c d : Char => c.toNat < d.toNat) xs ys := by
  induction xs generalizing ys with
  | nil =>
      simp [Lists.nil_inLexOrder]
  | cons x xs ih =>
      cases ys with
      | nil =>
          simp [Lists.not_cons_inLexOrder_nil]
      | cons y ys =>
          have hlt : y < x ↔ y.toNat < x.toNat := Iff.rfl
          rw [List.cons_lt_cons_iff, Lists.inLexOrder_cons_iff, ← ih, hlt,
            ← Char.toNat_inj, ← Char.toNat_inj]
          grind

/-- The order of texts as values is that of their code points. -/
theorem le_iff_inCodeOrder
    {s t : String} :
    s ≤ t ↔ InCodeOrder s t := by
  rw [← String.not_lt, String.lt_iff]
  exact not_lt_iff_inLexOrder

end Texts

end Text
end HaskellTags
