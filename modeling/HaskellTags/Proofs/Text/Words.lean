import HaskellTags.Proofs.Lists
import HaskellTags.Proofs.Text.Rows
import HaskellTags.Text.Blank
import Mathlib.Data.List.ReduceOption
import Mathlib.Logic.Relation

/-!
# Words and one-line texts

The words of a text are what stands between its blanks.  The one-line form of a
text is its words with one space between them, by `oneLine_eq`, so that it keeps
every word and forgets which blanks stood between them.

`squeeze` may leave one space at either end, which the trimming takes away; the
induction over the characters is therefore about `squeezeFrom true`, which never
leaves one at the start.

A mark between texts stands for something that is no text and parts words like a
blank.  A change of layout puts other blanks and marks between the words, and
`markedWords_eq_of_relaid` says that it keeps them.
-/

namespace HaskellTags
namespace Text

section Words

/-- The words of a text: the characters between blanks, where there are any. -/
def words (cs : List Char) : List (List Char) :=
  (splitWhen isBlank cs).filter fun part => !part.isEmpty

/-- A word is not empty and holds no blank. -/
def IsWord (w : List Char) : Prop :=
  w ≠ [] ∧ ∀ c ∈ w, isBlank c = false

/-- Words with one space between them. -/
def spaced (ws : List (List Char)) : List Char :=
  [' '].intercalate ws

@[simp]
theorem spaced_nil : spaced [] = [] := rfl

@[simp]
theorem spaced_singleton
    (w : List Char) :
    spaced [w] = w :=
  List.intercalate_singleton

theorem spaced_cons_of_ne_nil
    (w : List Char)
    {ws : List (List Char)}
    (hws : ws ≠ []) :
    spaced (w :: ws) = w ++ ' ' :: spaced ws := by
  rw [spaced, List.intercalate_cons_of_ne_nil hws, List.append_assoc]
  rfl

theorem spaced_cons_cons
    (c : Char)
    (w : List Char)
    (ws : List (List Char)) :
    spaced ((c :: w) :: ws) = c :: spaced (w :: ws) :=
  List.intercalate_cons_cons_left

theorem words_cons_of_blank
    {c : Char}
    (hc : isBlank c = true)
    (cs : List Char) :
    words (c :: cs) = words cs := by
  simp [words, splitWhen, hc]

/-- A blank ends the words before it. -/
theorem words_append_cons
    (xs ys : List Char)
    {c : Char}
    (hc : isBlank c = true) :
    words (xs ++ c :: ys) = words xs ++ words ys := by
  rw [words, splitWhen_append_cons xs ys hc, List.filter_append]
  rfl

theorem words_singleton
    {c : Char}
    (hc : isBlank c = false) :
    words [c] = [[c]] := by
  simp [words, splitWhen, hc]

theorem words_cons_cons_of_blank
    {c d : Char}
    (hc : isBlank c = false)
    (hd : isBlank d = true)
    (cs : List Char) :
    words (c :: d :: cs) = [c] :: words cs := by
  simp [words, splitWhen, hc, hd]

/-- A character before another one of a word belongs to the same word. -/
theorem exists_words_cons_cons
    {c d : Char}
    (hc : isBlank c = false)
    (hd : isBlank d = false)
    (cs : List Char) :
    ∃ (w : List Char) (ws : List (List Char)),
      words (d :: cs) = w :: ws ∧ words (c :: d :: cs) = (c :: w) :: ws := by
  cases hparts : splitWhen isBlank cs with
  | nil =>
      exact absurd hparts (splitWhen_ne_nil isBlank cs)
  | cons part parts =>
      refine ⟨d :: part, parts.filter fun part => !part.isEmpty, ?_, ?_⟩
      · simp [words, splitWhen, hd, hparts]
      · simp [words, splitWhen, hc, hd, hparts]

theorem isWord_of_mem_words
    {cs w : List Char}
    (hw : w ∈ words cs) :
    IsWord w := by
  obtain ⟨hpart, hne⟩ := List.mem_filter.1 hw
  refine ⟨?_, fun c hc => not_of_mem_splitWhen hpart hc⟩
  rintro rfl
  cases hne

end Words

section Squeezing

/-- After a blank, squeezing gives the words with a space between them, and one
more if blanks follow the last word. -/
theorem exists_squeezeFrom_true
    (cs : List Char) :
    ∃ trail : List Char,
      (∀ c ∈ trail, isBlank c = true) ∧
      (words cs = [] → trail = []) ∧
      squeezeFrom true cs = spaced (words cs) ++ trail := by
  induction cs with
  | nil =>
      exact ⟨[], by simp, fun _ => rfl, rfl⟩
  | cons c cs ih =>
      obtain ⟨trail, hblank, hnone, hrest⟩ := ih
      cases hc : isBlank c with
      | true =>
          rw [words_cons_of_blank hc]
          refine ⟨trail, hblank, hnone, ?_⟩
          simpa [squeezeFrom, hc] using hrest
      | false =>
          cases cs with
          | nil =>
              refine ⟨[], by simp, fun _ => rfl, ?_⟩
              simp [words_singleton hc, squeezeFrom, hc]
          | cons d cs =>
              cases hd : isBlank d with
              | true =>
                  rw [words_cons_of_blank hd] at hnone hrest
                  have hsqueezed :
                      squeezeFrom true (c :: d :: cs) =
                        c :: ' ' :: (spaced (words cs) ++ trail) := by
                    simpa [squeezeFrom, hc, hd] using hrest
                  rw [words_cons_cons_of_blank hc hd, hsqueezed]
                  -- the space is trailing if no word follows it
                  by_cases hwords : words cs = []
                  · refine ⟨[' '], List.forall_mem_singleton.2 rfl, by simp, ?_⟩
                    simp [hwords, hnone hwords]
                  · refine ⟨trail, hblank, by simp, ?_⟩
                    rw [spaced_cons_of_ne_nil [c] hwords]
                    simp
              | false =>
                  obtain ⟨w, ws, hwords, hmore⟩ := exists_words_cons_cons hc hd cs
                  have hsqueezed :
                      squeezeFrom true (c :: d :: cs) =
                        c :: squeezeFrom true (d :: cs) := by
                    simp [squeezeFrom, hc, hd]
                  refine ⟨trail, hblank, by simp [hmore], ?_⟩
                  rw [hmore, hsqueezed, hrest, hwords, spaced_cons_cons]
                  rfl

/-- Squeezing gives the words with a space between them, and blanks around
them. -/
theorem exists_squeeze
    (cs : List Char) :
    ∃ lead trail : List Char,
      (∀ c ∈ lead, isBlank c = true) ∧
      (∀ c ∈ trail, isBlank c = true) ∧
      squeeze cs = lead ++ spaced (words cs) ++ trail := by
  obtain ⟨trail, hblank, -, hrest⟩ := exists_squeezeFrom_true cs
  cases cs with
  | nil =>
      exact ⟨[], [], by simp, by simp, rfl⟩
  | cons c cs =>
      cases hc : isBlank c with
      | true =>
          refine ⟨[' '], trail, List.forall_mem_singleton.2 rfl, hblank, ?_⟩
          have hstep : squeeze (c :: cs) = ' ' :: squeezeFrom true (c :: cs) := by
            simp [squeeze, squeezeFrom, hc]
          rw [hstep, hrest]
          rfl
      | false =>
          refine ⟨[], trail, by simp, hblank, ?_⟩
          have hstep : squeeze (c :: cs) = squeezeFrom true (c :: cs) := by
            simp [squeeze, squeezeFrom, hc]
          rw [hstep, hrest]
          rfl

theorem dropWhile_append_of_head?
    {p : Char → Bool} {xs ys : List Char}
    (hxs : ∀ c ∈ xs, p c = true)
    (hys : ∀ c ∈ ys.head?, p c = false) :
    (xs ++ ys).dropWhile p = ys := by
  rw [List.dropWhile_append_of_pos hxs]
  cases ys with
  | nil =>
      rfl
  | cons y ys =>
      rw [List.dropWhile_cons_of_neg]
      simp [hys y rfl]

/-- What stands between blanks and has none at its ends is left by trimming. -/
theorem trimEnds_append
    {p : Char → Bool} {lead middle trail : List Char}
    (hlead : ∀ c ∈ lead, p c = true)
    (htrail : ∀ c ∈ trail, p c = true)
    (hhead : ∀ c ∈ middle.head?, p c = false)
    (hlast : ∀ c ∈ middle.getLast?, p c = false) :
    trimEnds p (lead ++ middle ++ trail) = middle := by
  rw [← List.head?_reverse] at hlast
  have hreversed : ∀ c ∈ trail.reverse, p c = true :=
    fun c hc => htrail c (List.mem_reverse.1 hc)
  by_cases hmiddle : middle = []
  · have hall : (lead ++ middle ++ trail).dropWhile p = [] := by
      rw [List.dropWhile_eq_nil_iff, hmiddle]
      simpa using fun c hc => hc.elim (hlead c) (htrail c)
    rw [trimEnds, hall, hmiddle]
    rfl
  · have hstart : (lead ++ middle ++ trail).dropWhile p = middle ++ trail := by
      rw [List.append_assoc]
      apply dropWhile_append_of_head? hlead
      rwa [List.head?_append_of_ne_nil _ hmiddle]
    rw [trimEnds, hstart, List.reverse_append,
      dropWhile_append_of_head? hreversed hlast, List.reverse_reverse]

/-- Trimming takes away what is at either end, and nothing of it is left there. -/
theorem exists_trimEnds
    (p : Char → Bool)
    (cs : List Char) :
    ∃ lead trail : List Char,
      cs = lead ++ trimEnds p cs ++ trail ∧
      (∀ c ∈ lead, p c = true) ∧
      (∀ c ∈ trail, p c = true) ∧
      (∀ c ∈ (trimEnds p cs).head?, p c = false) ∧
      ∀ c ∈ (trimEnds p cs).getLast?, p c = false := by
  have hrest : trimEnds p cs ++ (cs.dropWhile p).rtakeWhile p = cs.dropWhile p :=
    List.rdropWhile_append_rtakeWhile
  refine ⟨cs.takeWhile p, (cs.dropWhile p).rtakeWhile p, ?_, ?_, ?_, ?_, ?_⟩
  · rw [List.append_assoc, hrest, List.takeWhile_append_dropWhile]
  · exact fun c hc => List.mem_takeWhile_imp hc
  · exact fun c hc => List.mem_rtakeWhile_imp hc
  · intro c hc
    have hhead : (cs.dropWhile p).head? = some c := by
      rw [← hrest, List.head?_append, Option.mem_def.1 hc]
      rfl
    have hnot := List.head?_dropWhile_not p cs
    rw [hhead] at hnot
    simpa using hnot
  · intro c hc
    have hhead : ((cs.dropWhile p).reverse.dropWhile p).head? = some c := by
      rw [← List.getLast?_reverse]
      exact hc
    have hnot := List.head?_dropWhile_not p (cs.dropWhile p).reverse
    rw [hhead] at hnot
    simpa using hnot

theorem head?_spaced
    {ws : List (List Char)}
    (hws : ∀ w ∈ ws, IsWord w) :
    ∀ c ∈ (spaced ws).head?, isBlank c = false := by
  intro c hc
  cases ws with
  | nil =>
      cases hc
  | cons w ws =>
      obtain ⟨hne, hfree⟩ := hws w List.mem_cons_self
      cases w with
      | nil =>
          exact absurd rfl hne
      | cons d w =>
          rw [spaced_cons_cons, List.head?_cons, Option.mem_some_iff] at hc
          exact hfree c (hc ▸ List.mem_cons_self)

theorem getLast?_spaced
    {ws : List (List Char)}
    (hws : ∀ w ∈ ws, IsWord w) :
    ∀ c ∈ (spaced ws).getLast?, isBlank c = false := by
  induction ws with
  | nil =>
      intro c hc
      cases hc
  | cons w ws ih =>
      obtain ⟨hw, hrest⟩ := List.forall_mem_cons.1 hws
      intro c hc
      by_cases hnone : ws = []
      · rw [hnone, spaced_singleton] at hc
        exact hw.2 c (List.mem_of_getLast? hc)
      · have hne : spaced ws ≠ [] := by
          obtain ⟨v, vs, rfl⟩ := List.exists_cons_of_ne_nil hnone
          obtain ⟨d, v, rfl⟩ :=
            List.exists_cons_of_ne_nil (hrest v List.mem_cons_self).1
          simp [spaced_cons_cons]
        rw [spaced_cons_of_ne_nil w hnone, List.getLast?_append_of_ne_nil _ (by simp),
          List.getLast?_cons_of_ne_nil hne] at hc
        exact ih hrest c hc

/-- Texts with one space between them have the words of all. -/
theorem words_spaced
    (texts : List (List Char)) :
    words (spaced texts) = texts.flatMap words := by
  by_cases hnone : texts = []
  · rw [hnone]
    rfl
  · exact Lists.flatMap_intercalate (fun xs ys => words_append_cons xs ys rfl) hnone

/-- The one-line form of a text is its words with one space between them. -/
theorem oneLine_eq
    (s : String) :
    oneLine s = String.ofList (spaced (words s.toList)) := by
  have hwords : ∀ w ∈ words s.toList, IsWord w :=
    fun w hw => isWord_of_mem_words hw
  obtain ⟨lead, trail, hlead, htrail, hsqueeze⟩ := exists_squeeze s.toList
  rw [oneLine, trimChars, hsqueeze,
    trimEnds_append hlead htrail (head?_spaced hwords) (getLast?_spaced hwords)]

/-- The only blank among spaced words is the space. -/
theorem eq_space_of_mem_spaced
    {ws : List (List Char)}
    (hws : ∀ w ∈ ws, IsWord w)
    {c : Char}
    (hc : c ∈ spaced ws)
    (hblank : isBlank c = true) :
    c = ' ' := by
  induction ws with
  | nil =>
      cases hc
  | cons w ws ih =>
      obtain ⟨hw, hrest⟩ := List.forall_mem_cons.1 hws
      have hword : c ∉ w := by
        intro hmem
        rw [hw.2 c hmem] at hblank
        cases hblank
      by_cases hnone : ws = []
      · rw [hnone, spaced_singleton] at hc
        exact absurd hc hword
      · rw [spaced_cons_of_ne_nil w hnone, List.mem_append, List.mem_cons] at hc
        rcases hc with hc | hc | hc
        · exact absurd hc hword
        · exact hc
        · exact ih hrest hc

end Squeezing

section Marks

/-- What stands between the words of a text with marks: a blank, or a mark. -/
def isBreak (x : Option Char) : Bool :=
  x.all isBlank

/-- The words of a text with marks: the characters between blanks and marks, where
there are any. -/
def markedWords (xs : List (Option Char)) : List (List Char) :=
  ((splitWhen isBreak xs).map List.reduceOption).filter fun part => !part.isEmpty

/-- Texts side by side, with a mark between each and the next. -/
def marked (texts : List (List Char)) : List (Option Char) :=
  [none].intercalate (texts.map fun text => text.map some)

/-- A change of layout: another run of blanks and marks between two words, or none
any more before the first word or after the last. -/
inductive Relaid : List (Option Char) → List (Option Char) → Prop
  | between (before after : List (Option Char)) {gap other : List (Option Char)}
      (hgap : gap ≠ [] ∧ ∀ x ∈ gap, isBreak x = true)
      (hother : other ≠ [] ∧ ∀ x ∈ other, isBreak x = true) :
      Relaid (before ++ gap ++ after) (before ++ other ++ after)
  | lead (after : List (Option Char)) {gap : List (Option Char)}
      (hgap : ∀ x ∈ gap, isBreak x = true) :
      Relaid (gap ++ after) after
  | trail (before : List (Option Char)) {gap : List (Option Char)}
      (hgap : ∀ x ∈ gap, isBreak x = true) :
      Relaid (before ++ gap) before

@[simp] theorem markedWords_nil : markedWords [] = [] := rfl

theorem markedWords_append_cons
    (xs ys : List (Option Char))
    {x : Option Char}
    (hx : isBreak x = true) :
    markedWords (xs ++ x :: ys) = markedWords xs ++ markedWords ys := by
  rw [markedWords, splitWhen_append_cons xs ys hx, List.map_append, List.filter_append]
  rfl

/-- A run of blanks and marks ends the words before it, however long it is. -/
theorem markedWords_append_gap
    (xs ys : List (Option Char))
    {gap : List (Option Char)}
    (hne : gap ≠ [])
    (hgap : ∀ x ∈ gap, isBreak x = true) :
    markedWords (xs ++ gap ++ ys) = markedWords xs ++ markedWords ys := by
  induction gap generalizing xs with
  | nil =>
      exact absurd rfl hne
  | cons x gap ih =>
      obtain ⟨hx, hrest⟩ := List.forall_mem_cons.1 hgap
      by_cases hnone : gap = []
      · rw [hnone, List.append_assoc]
        exact markedWords_append_cons xs ys hx
      · have hsplit := markedWords_append_cons xs (gap ++ ys) hx
        have htail := ih [] hnone hrest
        rw [List.nil_append, markedWords_nil, List.nil_append] at htail
        rw [List.append_assoc, List.cons_append, hsplit, htail]

/-- A change of layout keeps the words. -/
theorem Relaid.markedWords_eq
    {xs ys : List (Option Char)}
    (h : Relaid xs ys) :
    markedWords xs = markedWords ys := by
  cases h with
  | between before after hgap hother =>
      rw [markedWords_append_gap before after hgap.1 hgap.2,
        markedWords_append_gap before after hother.1 hother.2]
  | @lead after gap hgap =>
      by_cases hnone : gap = []
      · rw [hnone, List.nil_append]
      · have hwords := markedWords_append_gap [] ys hnone hgap
        rwa [List.nil_append, markedWords_nil, List.nil_append] at hwords
  | @trail before gap hgap =>
      by_cases hnone : gap = []
      · rw [hnone, List.append_nil]
      · have hwords := markedWords_append_gap ys [] hnone hgap
        rwa [List.append_nil, markedWords_nil, List.append_nil] at hwords

/-- Changes of layout, there and back, keep the words. -/
theorem markedWords_eq_of_relaid
    {xs ys : List (Option Char)}
    (h : Relation.EqvGen Relaid xs ys) :
    markedWords xs = markedWords ys := by
  induction h with
  | rel xs ys hstep =>
      exact hstep.markedWords_eq
  | refl xs =>
      rfl
  | symm xs ys _ ih =>
      exact ih.symm
  | trans xs ys zs _ _ ihl ihr =>
      exact ihl.trans ihr

theorem splitWhen_map
    {α β : Type}
    (separates : β → Bool)
    (f : α → β)
    (xs : List α) :
    splitWhen separates (xs.map f) =
      (splitWhen (fun x => separates (f x)) xs).map (List.map f) := by
  induction xs with
  | nil =>
      rfl
  | cons x xs ih =>
      cases hx : separates (f x) with
      | true =>
          simp [splitWhen, hx, ih]
      | false =>
          cases hparts : splitWhen (fun x => separates (f x)) xs with
          | nil =>
              exact absurd hparts (splitWhen_ne_nil _ xs)
          | cons part parts =>
              simp [splitWhen, hx, ih, hparts]

/-- Without a mark the words are those of the text. -/
theorem markedWords_map_some
    (cs : List Char) :
    markedWords (cs.map some) = words cs := by
  have hreduce : List.reduceOption ∘ List.map some = (id : List Char → List Char) := by
    funext cs
    simp [List.reduceOption]
  rw [markedWords, splitWhen_map, List.map_map, hreduce, List.map_id]
  rfl

/-- The words between marks are those of the texts. -/
theorem markedWords_marked
    (texts : List (List Char)) :
    markedWords (marked texts) = texts.flatMap words := by
  by_cases hnone : texts = []
  · rw [hnone]
    rfl
  · have hne : texts.map (fun text => text.map some) ≠ [] := by
      simpa using hnone
    rw [marked, Lists.flatMap_intercalate (fun xs ys => markedWords_append_cons xs ys rfl) hne,
      List.flatMap_map]
    exact List.flatMap_congr fun text _ => markedWords_map_some text

end Marks

end Text
end HaskellTags
