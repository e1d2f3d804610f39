import HaskellTags.Files.Writing
import Mathlib.Data.List.Infix

/-!
# Trees of files

A tree is seen through `shownAt`: what is at some names, told by the content of a
file.  Two trees that show the same everywhere hold the same files and the same
directories.

`shownAt_put` says all about putting an item into a tree: below the names it is
the item that is seen, on the way to them there are directories, and elsewhere
nothing has changed.
-/

namespace HaskellTags
namespace Files
namespace Item

open Text

section Views

/-- What a tree shows at some names: nothing, a directory, or a file with its
content. -/
def shownAt (root : Item) (names : List String) : Option (Option Octets) :=
  (root.get? names).map shown

/-- There is a directory at some names. -/
def HasDirectory (root : Item) (names : List String) : Prop :=
  root.shownAt names = some none

theorem hasDirectory_iff
    {root : Item} {names : List String} :
    root.HasDirectory names ↔
      ∃ listing, root.get? names = some (.directory listing) := by
  unfold HasDirectory shownAt
  cases root.get? names with
  | none =>
      simp
  | some item =>
      cases item with
      | file content =>
          simp [shown]
      | directory listing =>
          simp [shown]

theorem get?_append
    (root : Item)
    (names more : List String) :
    root.get? (names ++ more) = (root.get? names).bind (get? more) := by
  induction names generalizing root with
  | nil =>
      rfl
  | cons name names ih =>
      cases root with
      | file content =>
          rfl
      | directory listing =>
          simp only [List.cons_append, get?]
          cases find listing name with
          | none =>
              rfl
          | some item =>
              exact ih item

theorem shownAt_cons
    (listing : List (String × Item))
    (name : String)
    (names : List String) :
    (directory listing).shownAt (name :: names) =
      (find listing name).bind fun item => item.shownAt names := by
  simp only [shownAt, get?]
  cases find listing name <;> rfl

theorem shownAt_concat
    {root : Item} {names : List String} {listing : List (String × Item)}
    (h : root.get? names = some (.directory listing))
    (name : String) :
    root.shownAt (names ++ [name]) = (find listing name).map shown := by
  rw [shownAt, get?_append, h]
  simp only [Option.bind_some, get?]
  cases find listing name <;> rfl

/-- Below what is no directory there is nothing. -/
theorem shownAt_append_of_not_hasDirectory
    {root : Item} {names more : List String}
    (h : ¬ root.HasDirectory names)
    (hmore : more ≠ []) :
    root.shownAt (names ++ more) = none := by
  obtain ⟨name, more, rfl⟩ := List.exists_cons_of_ne_nil hmore
  rw [shownAt, get?_append]
  cases hitem : root.get? names with
  | none =>
      rfl
  | some item =>
      cases item with
      | file content =>
          rfl
      | directory listing =>
          exact absurd (hasDirectory_iff.2 ⟨listing, hitem⟩) h

theorem hasDirectory_above
    {root : Item} {names longer : List String}
    (hstart : names <+: longer)
    (hne : names ≠ longer)
    (hlonger : root.shownAt longer ≠ none) :
    root.HasDirectory names := by
  obtain ⟨more, rfl⟩ := hstart
  by_contra h
  apply hlonger
  apply shownAt_append_of_not_hasDirectory h
  rintro rfl
  simp at hne

theorem HasDirectory.above
    {root : Item} {names longer : List String}
    (h : root.HasDirectory longer)
    (hstart : names <+: longer) :
    root.HasDirectory names := by
  by_cases heq : names = longer
  · rw [heq]
    exact h
  · apply hasDirectory_above hstart heq
    rw [h]
    nofun

end Views

section Putting

theorem find_setIn
    (listing : List (String × Item))
    (name : String)
    (item : Item)
    (n : String) :
    find (setIn listing name item) n = if n = name then some item else find listing n := by
  induction listing with
  | nil =>
      by_cases hn : n = name
      · simp [setIn, find, hn]
      · simp [setIn, find, hn, Ne.symm hn]
  | cons e listing ih =>
      simp only [find] at ih
      by_cases he : e.1 = name
      · by_cases hn : n = name
        · simp [setIn, find, he, hn]
        · simp [setIn, find, he, hn, Ne.symm hn]
      · by_cases hn : e.1 = n
        · have hne : n ≠ name := fun h => he (hn.trans h)
          simp [setIn, find, hn, hne]
        · simp [setIn, find, he, hn, ih]

/-- No file stands on the way to some names. -/
def OpenWay (root : Item) (names : List String) : Prop :=
  ∀ above, above <+: names → above ≠ names →
    ∀ content, root.shownAt above ≠ some (some content)

theorem openWay_of_hasDirectory
    {root : Item} {names : List String}
    (h : root.HasDirectory names)
    (name : String) :
    root.OpenWay (names ++ [name]) := by
  intro above hstart hne content hfile
  rcases List.prefix_concat_iff.1 hstart with heq | hstart
  · exact hne heq
  · rw [h.above hstart] at hfile
    cases hfile

theorem shownAt_empty
    {names : List String}
    (hnames : names ≠ []) :
    empty.shownAt names = none := by
  obtain ⟨name, names, rfl⟩ := List.exists_cons_of_ne_nil hnames
  rfl

theorem OpenWay.child
    {listing : List (String × Item)} {name : String} {names : List String}
    (h : (directory listing).OpenWay (name :: names)) :
    ((find listing name).getD empty).OpenWay names := by
  intro above hstart hne content hfile
  cases hitem : find listing name with
  | none =>
      rw [hitem, Option.getD_none] at hfile
      cases above with
      | nil =>
          cases hfile
      | cons n above =>
          cases hfile
  | some item =>
      rw [hitem, Option.getD_some] at hfile
      apply h (name :: above) (List.cons_prefix_cons.2 ⟨rfl, hstart⟩) (by simpa using hne)
        content
      rw [shownAt_cons, hitem]
      exact hfile

/-- What is seen after an item was put below some names. -/
theorem shownAt_put
    {root : Item} {names : List String}
    (hway : root.OpenWay names)
    (new : Item)
    (seen : List String) :
    (root.put names new).shownAt seen =
      if names <+: seen then new.shownAt (seen.drop names.length)
      else if seen <+: names then some none
      else root.shownAt seen := by
  -- the induction goes down the names, into the child that they lead to
  induction names generalizing root seen with
  | nil =>
      cases root <;> simp [put]
  | cons name names ih =>
      cases root with
      | file content =>
          exact absurd rfl (hway [] List.nil_prefix (by simp) content)
      | directory listing =>
          cases seen with
          | nil =>
              simp [put, shownAt, get?, shown]
          | cons n seen =>
              rw [put, shownAt_cons, find_setIn]
              by_cases hn : n = name
              · rw [if_pos hn, Option.bind_some, ih hway.child, hn]
                simp only [List.cons_prefix_cons, true_and, List.length_cons,
                  List.drop_succ_cons, shownAt_cons]
                by_cases hbelow : names <+: seen
                · rw [if_pos hbelow, if_pos hbelow]
                · by_cases habove : seen <+: names
                  · rw [if_neg hbelow, if_neg hbelow, if_pos habove, if_pos habove]
                  · have hne : seen ≠ [] := by
                      rintro rfl
                      exact habove List.nil_prefix
                    rw [if_neg hbelow, if_neg hbelow, if_neg habove, if_neg habove]
                    cases find listing name with
                    | none =>
                        exact shownAt_empty hne
                    | some item =>
                        rfl
              · have hne : name ≠ n := Ne.symm hn
                rw [if_neg hn]
                simp [hn, hne, shownAt_cons]

/-- What is put where there was no directory, and has nothing below it, shows at
its names alone. -/
theorem shownAt_put_leaf
    {root new : Item} {names : List String} {name : String}
    (hparent : root.HasDirectory names)
    (hfree : ¬ root.HasDirectory (names ++ [name]))
    (hleaf : ∀ more, more ≠ [] → new.shownAt more = none)
    (seen : List String) :
    (root.put (names ++ [name]) new).shownAt seen =
      if seen = names ++ [name] then some new.shown else root.shownAt seen := by
  rw [shownAt_put (openWay_of_hasDirectory hparent name)]
  by_cases hseen : seen = names ++ [name]
  · rw [hseen, if_pos (List.prefix_refl _), if_pos rfl, List.drop_length]
    rfl
  rw [if_neg hseen]
  by_cases hbelow : names ++ [name] <+: seen
  · obtain ⟨more, rfl⟩ := hbelow
    have hmore : more ≠ [] := by
      rintro rfl
      exact hseen (List.append_nil _)
    rw [if_pos (List.prefix_append _ _), List.drop_left, hleaf more hmore,
      shownAt_append_of_not_hasDirectory hfree hmore]
  · rw [if_neg hbelow]
    by_cases habove : seen <+: names ++ [name]
    · have hstart : seen <+: names :=
        (List.prefix_concat_iff.1 habove).resolve_left hseen
      rw [if_pos habove, hparent.above hstart]
    · rw [if_neg habove]

end Putting

end Item
end Files
end HaskellTags
