import HaskellTags.Proofs.Settings.KeyByKey
import HaskellTags.Proofs.Settings.Strictness
import HaskellTags.Proofs.Text.Words

/-!
# The normal form of extensions

Extensions come from a list in a settings file or from a variable with commas.  The file
takes the normal form of every item and then leaves out those of which nothing is left, and
the variable leaves out the blank items first.  `Normalizes` says what the normal form of an
item is without the trimming, and only a blank item has none: so both ways come to the same
extensions, and an extension in normal form stays as it is.
-/

namespace HaskellTags
namespace Settings

open Text

section NormalForm

/-- No blank stands at either end. -/
def Unpadded (cs : List Char) : Prop :=
  (∀ c ∈ cs.head?, isBlank c = false) ∧ ∀ c ∈ cs.getLast?, isBlank c = false

/-- An extension in normal form has a point in front, and no blank at either end. -/
structure IsNormal (extension : String) : Prop where
  point : extension.toList.head? = some '.'
  unpadded : Unpadded extension.toList

/-- The normal form of an item is what it holds between the blanks at its ends, with a point
in front if there is none. -/
def Normalizes (item extension : String) : Prop :=
  ∃ lead core trail : List Char,
    item.toList = lead ++ core ++ trail ∧
    (∀ c ∈ lead, isBlank c = true) ∧ (∀ c ∈ trail, isBlank c = true) ∧
    core ≠ [] ∧ Unpadded core ∧
    extension.toList = if core.head? = some '.' then core else '.' :: core

theorem trimChars_of_unpadded
    {cs : List Char}
    (h : Unpadded cs) :
    trimChars cs = cs := by
  have hnone : ∀ c ∈ ([] : List Char), isBlank c = true := by
    simp
  have hcore := trimEnds_append hnone hnone h.1 h.2
  rwa [List.nil_append, List.append_nil] at hcore

theorem trimChars_eq_nil_iff
    {cs : List Char} :
    trimChars cs = [] ↔ ∀ c ∈ cs, isBlank c = true := by
  constructor
  · intro hnil c hc
    obtain ⟨lead, trail, hcs, hlead, htrail, -, -⟩ := exists_trimEnds isBlank cs
    rw [hcs, ← trimChars, hnil, List.append_nil, List.mem_append] at hc
    exact hc.elim (hlead c) (htrail c)
  · intro hblank
    rw [trimChars, trimEnds, List.dropWhile_eq_nil_iff.2 hblank]
    rfl

theorem toList_normalExtension
    (s : String) :
    (normalExtension s).toList =
      if trimChars s.toList = [] ∨ (trimChars s.toList).head? = some '.' then
        trimChars s.toList
      else '.' :: trimChars s.toList := by
  have htrim : (trim s).toList = trimChars s.toList := String.toList_ofList
  have hempty : (trim s).isEmpty = true ↔ trimChars s.toList = [] := by
    rw [String.isEmpty_iff, ← String.toList_inj, htrim]
    rfl
  simp only [normalExtension, Bool.or_eq_true, decide_eq_true_eq, hempty, htrim]
  split
  · exact htrim
  · rw [String.toList_append, htrim]
    rfl

theorem normalExtension_of_blank
    {s : String}
    (hs : isBlankText s = true) :
    normalExtension s = "" := by
  have hnil : trimChars s.toList = [] :=
    trimChars_eq_nil_iff.2 (List.all_eq_true.1 hs)
  apply String.toList_injective
  rw [toList_normalExtension, if_pos (.inl hnil), hnil]
  rfl

theorem normalizes_normalExtension
    {s : String}
    (hs : isBlankText s = false) :
    Normalizes s (normalExtension s) := by
  obtain ⟨lead, trail, hcs, hlead, htrail, hhead, hlast⟩ :=
    exists_trimEnds isBlank s.toList
  have hne : trimChars s.toList ≠ [] := by
    rw [Ne, trimChars_eq_nil_iff, ← List.all_eq_true]
    exact Bool.eq_false_iff.1 hs
  refine ⟨lead, trimChars s.toList, trail, hcs, hlead, htrail, hne, ⟨hhead, hlast⟩, ?_⟩
  rw [toList_normalExtension]
  simp only [hne, false_or]

/-- A point in front of a text leaves no blank there, and its end stays as it is. -/
theorem Normalizes.isNormal
    {item e : String}
    (h : Normalizes item e) :
    IsNormal e := by
  obtain ⟨lead, core, trail, -, -, -, hne, hcore, he⟩ := h
  by_cases hpoint : core.head? = some '.'
  · rw [if_pos hpoint] at he
    refine ⟨?_, ?_⟩
    · rw [he, hpoint]
    · rwa [he]
  · rw [if_neg hpoint] at he
    refine ⟨?_, ?_, ?_⟩
    · rw [he]
      rfl
    · intro c hc
      rw [he] at hc
      cases hc
      rfl
    · intro c hc
      rw [he, List.getLast?_cons_of_ne_nil hne] at hc
      exact hcore.2 c hc

theorem IsNormal.isEmpty
    {e : String}
    (he : IsNormal e) :
    e.isEmpty = false := by
  rw [Bool.eq_false_iff, Ne, String.isEmpty_iff]
  rintro rfl
  cases he.point

theorem IsNormal.normalExtension
    {e : String}
    (he : IsNormal e) :
    normalExtension e = e := by
  apply String.toList_injective
  rw [toList_normalExtension, trimChars_of_unpadded he.unpadded, if_pos (.inr he.point)]

end NormalForm

section Items

theorem isEmpty_normalExtension
    (s : String) :
    (normalExtension s).isEmpty = isBlankText s := by
  cases hs : isBlankText s with
  | true =>
      rw [normalExtension_of_blank hs]
      rfl
  | false =>
      exact (normalizes_normalExtension hs).isNormal.isEmpty

/-- The blank items are those of which nothing is left: they may be left out before. -/
theorem normalExtensions_eq
    (xs : List String) :
    normalExtensions xs = (xs.filter fun x => !isBlankText x).map normalExtension := by
  rw [normalExtensions, List.filter_map]
  simp only [Function.comp_def, isEmpty_normalExtension]

theorem normalizes_normalExtensions
    (xs : List String) :
    List.Forall₂ Normalizes (xs.filter fun x => !isBlankText x) (normalExtensions xs) := by
  rw [normalExtensions_eq, List.forall₂_map_right_iff, List.forall₂_same]
  intro x hx
  exact normalizes_normalExtension (by simpa using (List.mem_filter.1 hx).2)

theorem isNormal_of_mem_normalExtensions
    {xs : List String} {e : String}
    (he : e ∈ normalExtensions xs) :
    IsNormal e := by
  obtain ⟨x, -, hx⟩ := Lists.exists_of_mem_right (normalizes_normalExtensions xs) he
  exact hx.isNormal

theorem normalExtensions_of_isNormal
    {es : List String}
    (hes : ∀ e ∈ es, IsNormal e) :
    normalExtensions es = es := by
  have hmap : es.map normalExtension = es.map id :=
    List.map_congr_left fun e he => (hes e he).normalExtension
  have hkept : ∀ e ∈ es, (!e.isEmpty) = true := by
    intro e he
    rw [(hes e he).isEmpty]
    rfl
  rw [normalExtensions, hmap, List.map_id, List.filter_eq_self.2 hkept]

theorem ofEntries_extensions
    (strict : Bool)
    (xs : List String) :
    ofEntries strict [(.text Key.extensions.name, .list (xs.map Value.text))] =
      ⟨.ok { extensions := some (normalExtensions xs) }, []⟩ := by
  have htexts : textsOf? (.list (xs.map Value.text)) = some xs :=
    mapM_text?_eq_some_iff.2 rfl
  have hchoice :
      choiceOf (.text Key.extensions.name, .list (xs.map Value.text)) =
        .ok { extensions := some (normalExtensions xs) } := by
    rw [choiceOf_of_key, choiceFor, textsFor, htexts]
    rfl
  rw [ofEntries, chooseFrom_of_ok hchoice]
  rfl

end Items

section Variables

theorem extensionsOf_intercalate
    {xs : List String}
    (hne : xs ≠ [])
    (hcomma : ∀ x ∈ xs, ',' ∉ x.toList) :
    Environment.extensionsOf (",".intercalate xs) = normalExtensions xs := by
  have hitems : splitText (· == ',') (",".intercalate xs) = xs :=
    splitText_intercalate hne hcomma
  rw [Environment.extensionsOf, hitems, normalExtensions_eq]

theorem normalExtensions_eq_nil_iff
    {xs : List String} :
    normalExtensions xs = [] ↔ xs.all isBlankText = true := by
  rw [normalExtensions_eq, List.map_eq_nil_iff, List.filter_eq_nil_iff, List.all_eq_true]
  simp only [Bool.not_eq_true', Bool.not_eq_false]

/-- The variable for extensions chooses these and nothing else. -/
theorem choices_set_extensionsVariable
    (env : Environment)
    {text : String}
    (hsome : Environment.extensionsOf text ≠ []) :
    (env.set Environment.extensionsVariable (some text)).choices =
      { env.choices with extensions := some (Environment.extensionsOf text) } := by
  have hsort : Environment.sortVariable ≠ Environment.extensionsVariable := by decide
  obtain ⟨e, es, hes⟩ := List.exists_cons_of_ne_nil hsome
  simp only [Environment.choices, get?_set_self, get?_set_of_ne hsort, Option.map_some, hes]

end Variables

section Agreement

/-- The extensions of a list are in normal form and stand in the order of its items, the
blank ones left out.  Read again they stay as they are, and the items with commas between
them choose the same extensions in the environment. -/
theorem extensions_have_normal_form
    (xs : List String) :
    ∃ es : List String,
      (∀ strict : Bool,
        ofEntries strict [(.text Key.extensions.name, .list (xs.map Value.text))] =
          ⟨.ok { extensions := some es }, []⟩) ∧
      (∀ e ∈ es, IsNormal e) ∧
      List.Forall₂ Normalizes (xs.filter fun x => !isBlankText x) es ∧
      (∀ strict : Bool,
        ofEntries strict [(.text Key.extensions.name, .list (es.map Value.text))] =
          ⟨.ok { extensions := some es }, []⟩) ∧
      ((∀ x ∈ xs, ',' ∉ x.toList) → (∃ x ∈ xs, isBlankText x = false) →
        ∀ env : Environment,
          (env.set Environment.extensionsVariable (some (",".intercalate xs))).choices =
            { env.choices with extensions := some es }) := by
  have hnormal : ∀ e ∈ normalExtensions xs, IsNormal e :=
    fun e he => isNormal_of_mem_normalExtensions he
  refine ⟨normalExtensions xs, fun strict => ofEntries_extensions strict xs, hnormal,
    normalizes_normalExtensions xs, ?_, ?_⟩
  · intro strict
    rw [ofEntries_extensions, normalExtensions_of_isNormal hnormal]
  · rintro hcomma ⟨x, hx, hblank⟩ env
    have hsame : Environment.extensionsOf (",".intercalate xs) = normalExtensions xs :=
      extensionsOf_intercalate (List.ne_nil_of_mem hx) hcomma
    have hsome : normalExtensions xs ≠ [] := by
      rw [Ne, normalExtensions_eq_nil_iff, List.all_eq_true]
      intro hnone
      rw [hnone x hx] at hblank
      cases hblank
    rw [← hsame] at hsome ⊢
    exact choices_set_extensionsVariable env hsome

namespace Sample

/-- An item without a point, a blank one, and one with a blank inside. -/
def items : List String := [" hs", "\t", ".x y "]

end Sample

/-- Both ways come to the same two extensions. -/
theorem extensions_have_normal_form_sample :
    (∀ x ∈ Sample.items, ',' ∉ x.toList) ∧
      (∃ x ∈ Sample.items, isBlankText x = false) ∧
      ∃ es : List String,
        es.length = 2 ∧
        ofEntries true [(.text Key.extensions.name, .list (Sample.items.map Value.text))] =
          ⟨.ok { extensions := some es }, []⟩ ∧
        Environment.choices
            [(Environment.extensionsVariable, ",".intercalate Sample.items)] =
          { extensions := some es } := by
  have hcomma : ∀ x ∈ Sample.items, ',' ∉ x.toList := by
    decide
  have hsome : ∃ x ∈ Sample.items, isBlankText x = false :=
    ⟨" hs", List.mem_cons_self, rfl⟩
  obtain ⟨es, hfile, -, hitems, -, hvariable⟩ := extensions_have_normal_form Sample.items
  refine ⟨hcomma, hsome, es, ?_, hfile true, hvariable hcomma hsome []⟩
  rw [← hitems.length_eq]
  rfl

end Agreement

end Settings
end HaskellTags
