import HaskellTags.Proofs.TagsFile.Order
import HaskellTags.Proofs.Text.CodePoints

/-!
# What a sorted tags file lists

The key of a tag is its name, its file and its line.  A sorted file lists the tags by
their keys, and those with equal keys as they came.  The keys are compared octet by
octet, which is no other order than that of the code points.
-/

namespace HaskellTags
namespace TagsFile

open Tag Text

section Keys

/-- The order of keys: by the code points of the name, then by those of the file, then
by the line. -/
def KeysInOrder : Tag → Tag → Prop :=
  ByKey InCodeOrder

/-- Two tags have one key. -/
def SameKey (s t : Tag) : Prop :=
  s.name = t.name ∧ s.file = t.file ∧ s.line = t.line

instance (s t : Tag) : Decidable (SameKey s t) :=
  inferInstanceAs (Decidable (s.name = t.name ∧ s.file = t.file ∧ s.line = t.line))

theorem inOrder_octetsOf_iff
    {s t : String} :
    InOrder (octetsOf s) (octetsOf t) ↔ InCodeOrder s t :=
  inLexOrder_octetsOf_iff

theorem atMost_iff_keysInOrder
    {s t : Tag} :
    atMost s t = true ↔ KeysInOrder s t := by
  simp only [atMost_iff_byPlace, ByPlace, KeysInOrder, inOrder_octetsOf_iff]

theorem atMost_of_sameKey
    {s t u : Tag}
    (hst : SameKey s t)
    (hsu : SameKey s u) :
    atMost t u = true := by
  obtain ⟨hname, hfile, hline⟩ := hst
  obtain ⟨hname', hfile', hline'⟩ := hsu
  rw [atMost_iff_keysInOrder]
  refine .inr (.inr ⟨hname.symm.trans hname', hfile.symm.trans hfile', ?_⟩)
  omega

end Keys

section Stability

theorem sort_perm
    (tags : List Tag) :
    (sort tags).Perm tags :=
  List.mergeSort_perm tags atMost

/-- Sorting keeps tags with one key in the order in which they came. -/
theorem filter_sameKey_sort
    (t : Tag)
    (tags : List Tag) :
    (sort tags).filter (fun u => decide (SameKey t u)) =
      tags.filter (fun u => decide (SameKey t u)) := by
  -- The tags with the key are in order among themselves, so they are a sublist of the
  -- sorted tags, and there are no more of them in there.
  have halike :
      (tags.filter fun u => decide (SameKey t u)).Pairwise fun u v => atMost u v = true := by
    rw [List.pairwise_filter]
    apply List.pairwise_of_forall
    intro u v hu hv
    exact atMost_of_sameKey (of_decide_eq_true hu) (of_decide_eq_true hv)
  have hsorted :
      (tags.filter fun u => decide (SameKey t u)).Sublist (sort tags) :=
    List.sublist_mergeSort atMost_trans atMost_total halike List.filter_sublist
  have hkept := hsorted.filter fun u => decide (SameKey t u)
  rw [List.filter_filter] at hkept
  simp only [Bool.and_self] at hkept
  have hlength := ((sort_perm tags).filter fun u => decide (SameKey t u)).length_eq
  exact (hkept.eq_of_length hlength.symm).symm

/-- The lines of the tags in a sorted file are those of the tags by name, file and line,
and tags of which all three agree stand as they came.  Names and files are ordered by
their code points, which is the order of their octets. -/
theorem sorted_lines_by_key_and_stable
    (withHeader : Bool)
    (tags : List Tag) :
    (∃ sorted : List Tag,
      lines true withHeader tags =
          (if withHeader then header true else []) ++ sorted.map render ∧
        sorted.Perm tags ∧
        sorted.Pairwise KeysInOrder ∧
        ∀ t : Tag,
          sorted.filter (fun u => decide (SameKey t u)) =
            tags.filter (fun u => decide (SameKey t u))) ∧
    ∀ s t : String, InOrder (octetsOf s) (octetsOf t) ↔ InCodeOrder s t := by
  refine ⟨⟨sort tags, rfl, sort_perm tags, ?_, ?_⟩, ?_⟩
  · exact (List.pairwise_mergeSort atMost_trans atMost_total tags).imp
      atMost_iff_keysInOrder.1
  · intro t
    exact filter_sameKey_sort t tags
  · intro s t
    exact inOrder_octetsOf_iff

end Stability

end TagsFile
end HaskellTags
