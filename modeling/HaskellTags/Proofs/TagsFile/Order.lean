import HaskellTags.Proofs.Lists
import HaskellTags.Proofs.TagsFile.Reading

/-!
# The order of a sorted tags file

A reader that searches a tags file by halving relies on the order of the first
fields of its lines, octet by octet.  The lines of the tags have this order: the
order that the file is sorted by compares names first, and it is total and
transitive, so that sorting does what it says.

The header is put before the sorted lines without being compared with them.  It
stands at its place exactly if no name of a tag comes before the name of the last
pseudo-tag, and operators such as `!` do.
-/

namespace HaskellTags
namespace TagsFile

open Tag Text

section Octets

/-- The order of octets: one list is the start of the other, or it has the smaller
octet where they first differ. -/
def InOrder (as bs : Octets) : Prop :=
  Lists.InLexOrder (· < ·) as bs

theorem octetsAtMost_iff
    {as bs : Octets} :
    octetsAtMost as bs = true ↔ InOrder as bs := by
  unfold InOrder
  induction as generalizing bs with
  | nil =>
      simp [octetsAtMost, Lists.nil_inLexOrder]
  | cons a as ih =>
      cases bs with
      | nil =>
          simp [octetsAtMost, Lists.not_cons_inLexOrder_nil]
      | cons b bs =>
          rw [Lists.inLexOrder_cons_iff, ← ih]
          simp [octetsAtMost]

instance (as bs : Octets) : Decidable (InOrder as bs) :=
  decidable_of_iff _ octetsAtMost_iff

theorem octetsAtMost_refl
    (as : Octets) :
    octetsAtMost as as = true :=
  octetsAtMost_iff.2 (.inl (List.prefix_refl as))

theorem octetsAtMost_total
    (as bs : Octets) :
    octetsAtMost as bs = true ∨ octetsAtMost bs as = true := by
  rw [octetsAtMost_iff, octetsAtMost_iff]
  apply Lists.inLexOrder_total
  intro a b
  rcases Nat.lt_trichotomy a.toNat b.toNat with hlt | heq | hlt
  · exact .inl (UInt8.lt_iff_toNat_lt.2 hlt)
  · exact .inr (.inl (UInt8.toNat_inj.1 heq))
  · exact .inr (.inr (UInt8.lt_iff_toNat_lt.2 hlt))

theorem octetsAtMost_trans
    {as bs cs : Octets}
    (hab : octetsAtMost as bs = true)
    (hbc : octetsAtMost bs cs = true) :
    octetsAtMost as cs = true := by
  rw [octetsAtMost_iff] at hab hbc ⊢
  refine Lists.inLexOrder_trans ?_ hab hbc
  intro a b c
  exact UInt8.lt_trans

theorem octetsAtMost_antisymm
    {as bs : Octets}
    (hab : octetsAtMost as bs = true)
    (hba : octetsAtMost bs as = true) :
    as = bs := by
  rw [octetsAtMost_iff] at hab hba
  refine Lists.inLexOrder_antisymm ?_ hab hba
  intro a b
  exact UInt8.lt_asymm

end Octets

section Sorting

/-- One tag is at most another if its name is the smaller, or the names agree and
the files are in order, or those agree too and the lines are. -/
theorem atMost_iff
    {a b : Tag} :
    atMost a b = true ↔
      (a.name ≠ b.name ∧ octetsAtMost (octetsOf a.name) (octetsOf b.name) = true) ∨
      (a.name = b.name ∧ a.file ≠ b.file ∧
        octetsAtMost (octetsOf a.file) (octetsOf b.file) = true) ∨
      (a.name = b.name ∧ a.file = b.file ∧ a.line ≤ b.line) := by
  have hname : octetsOf a.name = octetsOf b.name ↔ a.name = b.name :=
    octetsOf_injective.eq_iff
  have hfile : octetsOf a.file = octetsOf b.file ↔ a.file = b.file :=
    octetsOf_injective.eq_iff
  by_cases h₁ : a.name = b.name
  · by_cases h₂ : a.file = b.file
    · simp [atMost, h₁, h₂]
    · simp [atMost, h₁, h₂, hfile]
  · simp [atMost, h₁, hname]

theorem atMost_total
    (a b : Tag) :
    (atMost a b || atMost b a) = true := by
  rw [Bool.or_eq_true, atMost_iff, atMost_iff]
  by_cases hname : a.name = b.name
  · by_cases hfile : a.file = b.file
    · rcases Int.le_total a.line b.line with h | h
      · exact .inl (.inr (.inr ⟨hname, hfile, h⟩))
      · exact .inr (.inr (.inr ⟨hname.symm, hfile.symm, h⟩))
    · rcases octetsAtMost_total (octetsOf a.file) (octetsOf b.file) with h | h
      · exact .inl (.inr (.inl ⟨hname, hfile, h⟩))
      · exact .inr (.inr (.inl ⟨hname.symm, Ne.symm hfile, h⟩))
  · rcases octetsAtMost_total (octetsOf a.name) (octetsOf b.name) with h | h
    · exact .inl (.inl ⟨hname, h⟩)
    · exact .inr (.inl ⟨Ne.symm hname, h⟩)

theorem ne_of_octetsAtMost
    {s t u : String}
    (hne : s ≠ t)
    (hst : octetsAtMost (octetsOf s) (octetsOf t) = true)
    (htu : octetsAtMost (octetsOf t) (octetsOf u) = true) :
    s ≠ u := by
  rintro rfl
  exact hne (octetsOf_injective (octetsAtMost_antisymm hst htu))

theorem atMost_trans
    (a b c : Tag)
    (hab : atMost a b = true)
    (hbc : atMost b c = true) :
    atMost a c = true := by
  rw [atMost_iff] at hab hbc ⊢
  rcases hab with ⟨hne, hab⟩ | ⟨hname, hab⟩ | ⟨hname, hab⟩
  · rcases hbc with ⟨-, hbc⟩ | ⟨hname, -⟩ | ⟨hname, -⟩
    · exact .inl ⟨ne_of_octetsAtMost hne hab hbc, octetsAtMost_trans hab hbc⟩
    · exact .inl ⟨hname ▸ hne, hname ▸ hab⟩
    · exact .inl ⟨hname ▸ hne, hname ▸ hab⟩
  · rw [hname]
    rcases hbc with hbc | ⟨hname', -, hbc⟩ | ⟨hname', hfile, -⟩
    · exact .inl hbc
    · exact .inr (.inl ⟨hname', ne_of_octetsAtMost hab.1 hab.2 hbc,
        octetsAtMost_trans hab.2 hbc⟩)
    · exact .inr (.inl ⟨hname', hfile ▸ hab⟩)
  · rw [hname, hab.1]
    rcases hbc with hbc | hbc | ⟨hname', hfile, hline⟩
    · exact .inl hbc
    · exact .inr (.inl hbc)
    · exact .inr (.inr ⟨hname', hfile, Int.le_trans hab.2 hline⟩)

theorem inOrder_name_of_atMost
    {a b : Tag}
    (h : atMost a b = true) :
    InOrder (octetsOf a.name) (octetsOf b.name) := by
  rw [← octetsAtMost_iff]
  rcases atMost_iff.1 h with ⟨-, h⟩ | ⟨hname, -⟩ | ⟨hname, -⟩
  · exact h
  · rw [hname]
    exact octetsAtMost_refl _
  · rw [hname]
    exact octetsAtMost_refl _

theorem pairwise_sort
    (tags : List Tag) :
    (sort tags).Pairwise fun a b => InOrder (octetsOf a.name) (octetsOf b.name) :=
  (List.pairwise_mergeSort atMost_trans atMost_total tags).imp inOrder_name_of_atMost

/-- The order of tags by name, then by file, then by line, whatever the order of texts. -/
def ByKey (inOrder : String → String → Prop) (s t : Tag) : Prop :=
  (s.name ≠ t.name ∧ inOrder s.name t.name) ∨
  (s.name = t.name ∧ s.file ≠ t.file ∧ inOrder s.file t.file) ∨
  (s.name = t.name ∧ s.file = t.file ∧ s.line ≤ t.line)

/-- The order of tags in which texts are compared by their octets. -/
def ByPlace : Tag → Tag → Prop :=
  ByKey fun s t => InOrder (octetsOf s) (octetsOf t)

theorem atMost_iff_byPlace
    {s t : Tag} :
    atMost s t = true ↔ ByPlace s t := by
  rw [atMost_iff, octetsAtMost_iff, octetsAtMost_iff, ByPlace, ByKey]

theorem sort_pairwise_byPlace
    (tags : List Tag) :
    (sort tags).Pairwise ByPlace :=
  (List.pairwise_mergeSort atMost_trans atMost_total tags).imp atMost_iff_byPlace.1

/-- Sorting leaves alone what is in order, and nothing else. -/
theorem sort_eq_self_iff
    {tags : List Tag} :
    sort tags = tags ↔ tags.Pairwise ByPlace := by
  constructor
  · intro h
    rw [← h]
    exact sort_pairwise_byPlace tags
  · intro h
    exact List.mergeSort_of_pairwise (h.imp atMost_iff_byPlace.2)

end Sorting

section FirstFields

/-- What a line shows before its first tab. -/
def firstField (line : String) : String :=
  String.ofList (line.toList.takeWhile (· != '\t'))

theorem firstField_append_tab
    {s : String}
    (hs : '\t' ∉ s.toList)
    (rest : String) :
    firstField (s ++ "\t" ++ rest) = s := by
  have hfree : ∀ c ∈ s.toList, (c != '\t') = true := by
    intro c hc
    exact bne_iff_ne.2 (ne_of_mem_of_not_mem hc hs)
  have hline : (s ++ "\t" ++ rest).toList = s.toList ++ '\t' :: rest.toList := by
    simp
  rw [firstField, hline, List.takeWhile_append_of_pos hfree]
  simp

theorem firstField_render
    {t : Tag}
    (ht : '\t' ∉ t.name.toList) :
    firstField t.render = t.name := by
  rw [render_eq_tabbed, tabbed_cons, ← String.append_assoc, ← String.append_assoc,
    String.append_assoc]
  exact firstField_append_tab ht _

theorem map_firstField_render
    {tags : List Tag}
    (htags : ∀ t ∈ tags, '\t' ∉ t.name.toList) :
    (tags.map render).map firstField = tags.map Tag.name := by
  rw [List.map_map]
  apply List.map_congr_left
  intro t ht
  exact firstField_render (htags t ht)

/-- The lines of a file are in the order of their first fields. -/
def FirstFieldsInOrder (shown : List String) : Prop :=
  (shown.map firstField).Pairwise fun a b => InOrder (octetsOf a) (octetsOf b)

theorem firstFieldsInOrder_sort
    {tags : List Tag}
    (htags : ∀ t ∈ tags, '\t' ∉ t.name.toList) :
    FirstFieldsInOrder ((sort tags).map render) := by
  have hsort : ∀ t ∈ sort tags, '\t' ∉ t.name.toList := by
    intro t ht
    exact htags t (List.mem_mergeSort.1 ht)
  rw [FirstFieldsInOrder, map_firstField_render hsort, List.pairwise_map]
  exact pairwise_sort tags

end FirstFields

section Header

/-- The name of the last pseudo-tag of a header. -/
def lastPseudoTag : String := "!_TAG_PROGRAM_NAME"

theorem map_firstField_header :
    (header true).map firstField =
      ["!_TAG_FILE_FORMAT", "!_TAG_FILE_SORTED", lastPseudoTag] := by
  decide +kernel

theorem firstFieldsInOrder_header :
    FirstFieldsInOrder (header true) := by
  rw [FirstFieldsInOrder, map_firstField_header]
  decide +kernel

/-- Names come after all pseudo-tags if they come after the last one. -/
theorem header_before_iff
    {names : List String} :
    (∀ a ∈ (header true).map firstField, ∀ b ∈ names,
        InOrder (octetsOf a) (octetsOf b)) ↔
      ∀ b ∈ names, InOrder (octetsOf lastPseudoTag) (octetsOf b) := by
  have hlast :
      ∀ a ∈ (header true).map firstField,
        octetsAtMost (octetsOf a) (octetsOf lastPseudoTag) = true := by
    rw [map_firstField_header]
    decide +kernel
  have hmem : lastPseudoTag ∈ (header true).map firstField := by
    rw [map_firstField_header]
    decide
  simp only [← octetsAtMost_iff]
  constructor
  · intro h b hb
    exact h lastPseudoTag hmem b hb
  · intro h a ha b hb
    exact octetsAtMost_trans (hlast a ha) (h b hb)

/-- The lines of the tags in a sorted file are always in order.  With its header
the file is in order exactly if no name of a tag comes before the pseudo-tags. -/
theorem sorted_lines_in_order_iff
    (tags : List Tag)
    (htags : ∀ t ∈ tags, '\t' ∉ t.name.toList) :
    FirstFieldsInOrder (lines true false tags) ∧
      (FirstFieldsInOrder (lines true true tags) ↔
        ∀ t ∈ tags, InOrder (octetsOf lastPseudoTag) (octetsOf t.name)) := by
  have hsorted : FirstFieldsInOrder ((sort tags).map render) := firstFieldsInOrder_sort htags
  have hnames : ((sort tags).map render).map firstField = (sort tags).map Tag.name :=
    map_firstField_render fun t ht => htags t (List.mem_mergeSort.1 ht)
  have hmembers :
      (∀ b ∈ (sort tags).map Tag.name, InOrder (octetsOf lastPseudoTag) (octetsOf b)) ↔
        ∀ t ∈ tags, InOrder (octetsOf lastPseudoTag) (octetsOf t.name) := by
    simp [sort]
  refine ⟨hsorted, ?_⟩
  have hlines : lines true true tags = header true ++ (sort tags).map render := rfl
  rw [hlines, FirstFieldsInOrder, List.map_append, List.pairwise_append, ← hmembers, hnames]
  constructor
  · rintro ⟨-, -, hseam⟩
    exact header_before_iff.1 hseam
  · intro hseam
    refine ⟨firstFieldsInOrder_header, ?_, header_before_iff.2 hseam⟩
    rw [← hnames]
    exact hsorted

/-- Two functions, the second named by an operator. -/
def functionTags : List Tag :=
  [⟨"main", "A.hs", "main :: IO ()", .function, 3, none, some "IO ()", none⟩,
    ⟨"!!", "A.hs", "(!!) :: T", .function, 5, none, some "T", none⟩]

theorem functionTags_in_order_iff :
    (∀ t ∈ functionTags, '\t' ∉ t.name.toList) ∧
      FirstFieldsInOrder (lines true false functionTags) ∧
      ¬ FirstFieldsInOrder (lines true true functionTags) ∧
      FirstFieldsInOrder (lines true true (functionTags.take 1)) := by
  have hall : ∀ t ∈ functionTags, '\t' ∉ t.name.toList := by decide
  have hone : ∀ t ∈ functionTags.take 1, '\t' ∉ t.name.toList := by decide
  obtain ⟨hsorted, hwhole⟩ := sorted_lines_in_order_iff functionTags hall
  refine ⟨hall, hsorted, ?_, ?_⟩
  · rw [hwhole]
    decide +kernel
  · rw [(sorted_lines_in_order_iff (functionTags.take 1) hone).2]
    decide +kernel

/-- The tag of a function named by the operator `!`. -/
def bangTag : Tag :=
  ⟨"!", "A.hs", "(!) :: T", .function, 1, none, some "T", none⟩

/-- The line of this tag stands after a header that it comes before. -/
theorem bang_breaks_order :
    '\t' ∉ bangTag.name.toList ∧ ¬ FirstFieldsInOrder (lines true true [bangTag]) := by
  have hlines : lines true true [bangTag] = header true ++ [render bangTag] := by
    simp [lines, sort]
  refine ⟨by decide, ?_⟩
  rw [hlines, FirstFieldsInOrder]
  decide +kernel

end Header

end TagsFile
end HaskellTags
