import HaskellTags.Tag.Letters
import Mathlib.Data.List.Induction
import Mathlib.Data.List.Pairwise
import Mathlib.Data.Nat.Find

/-!
# Distinct letters

The names of kinds are checked one by one, each against the letters of the names before it.
As long as the check goes on, what it has seen is exactly these names by their letters, and
no two of them have one letter.  This is what a step keeps (`Recorded`).  So the letter of the
next name is found if and only if an earlier name has it, and there is never a choice between
two earlier names.

A name that is empty, or whose letter an earlier name has, is a fault of the list.  A list
without faults passes.  In any other list the check comes to the first fault, fails there, and
never looks at the names after it.
-/

namespace HaskellTags
namespace Tag

/-- The first letter of a name. -/
def firstLetter (name : String) : Option Char :=
  name.toList.head?

/-- The names of a list have letters, and no two of them the same. -/
structure OwnLetters (names : List String) : Prop where
  ne_empty : ∀ name ∈ names, name ≠ ""
  distinct : names.Pairwise fun a b => firstLetter a ≠ firstLetter b

section Names

variable {name : String} {letter : Char}

theorem firstLetter_eq_none_iff :
    firstLetter name = none ↔ name = "" := by
  rw [firstLetter, List.head?_eq_none_iff, String.toList_eq_nil_iff]

theorem exists_firstLetter
    (h : name ≠ "") :
    ∃ letter, firstLetter name = some letter :=
  Option.ne_none_iff_exists'.1 (mt firstLetter_eq_none_iff.1 h)

theorem ne_empty_of_firstLetter
    (h : firstLetter name = some letter) :
    name ≠ "" := by
  intro hempty
  rw [firstLetter_eq_none_iff.2 hempty] at h
  cases h

theorem ownLetters_append_singleton_iff
    {before : List String} :
    OwnLetters (before ++ [name]) ↔
      OwnLetters before ∧ name ≠ "" ∧
        ∀ earlier ∈ before, firstLetter earlier ≠ firstLetter name := by
  constructor
  · rintro ⟨hne, hdistinct⟩
    rw [List.forall_mem_append, List.forall_mem_singleton] at hne
    obtain ⟨hbefore, -, hname⟩ := List.pairwise_append.1 hdistinct
    exact ⟨⟨hne.1, hbefore⟩, hne.2, fun earlier h => hname earlier h name List.mem_cons_self⟩
  · rintro ⟨⟨hne, hdistinct⟩, hname, hfresh⟩
    refine ⟨List.forall_mem_append.2 ⟨hne, List.forall_mem_singleton.2 hname⟩, ?_⟩
    refine List.pairwise_append.2 ⟨hdistinct, List.pairwise_singleton _ _, ?_⟩
    intro earlier hearlier later hlater
    rw [List.mem_singleton.1 hlater]
    exact hfresh earlier hearlier

theorem OwnLetters.eq_of_firstLetter_eq
    {names : List String} {a b : String}
    (h : OwnLetters names)
    (ha : a ∈ names)
    (hb : b ∈ names)
    (hletter : firstLetter a = firstLetter b) :
    a = b := by
  have : Std.Symm fun a b : String => firstLetter a ≠ firstLetter b :=
    ⟨fun _ _ hne => hne.symm⟩
  by_contra hne
  exact h.distinct.forall ha hb hne hletter

end Names

section Steps

/-- What has been seen are the names before, each of them by a letter of its own. -/
structure Recorded (seen : List (Char × String)) (before : List String) : Prop where
  own : OwnLetters before
  mem_iff : ∀ letter name,
    (letter, name) ∈ seen ↔ name ∈ before ∧ firstLetter name = some letter

variable {seen : List (Char × String)} {before : List String}
variable {earlier name : String} {letter : Char}

theorem recorded_nil :
    Recorded [] [] := by
  refine ⟨⟨List.forall_mem_nil _, .nil⟩, fun letter name => ?_⟩
  simp only [List.not_mem_nil, false_and]

namespace Recorded

theorem find?_of_mem
    (h : Recorded seen before)
    (hearlier : earlier ∈ before)
    (hletter : firstLetter earlier = some letter) :
    (seen.find? fun s => s.1 = letter) = some (letter, earlier) := by
  have hseen : (letter, earlier) ∈ seen := (h.mem_iff letter earlier).2 ⟨hearlier, hletter⟩
  cases hfind : seen.find? fun s => s.1 = letter with
  | none =>
      exact absurd (decide_eq_true rfl) (List.find?_eq_none.1 hfind (letter, earlier) hseen)
  | some found =>
      have hfound := List.find?_some hfind
      obtain ⟨c, other⟩ := found
      obtain rfl : c = letter := of_decide_eq_true hfound
      -- Another name found by this letter would share it with the earlier one.
      obtain ⟨hother, hsame⟩ := (h.mem_iff c other).1 (List.mem_of_find?_eq_some hfind)
      rw [h.own.eq_of_firstLetter_eq hother hearlier (hsame.trans hletter.symm)]

theorem find?_of_fresh
    (h : Recorded seen before)
    (hletter : firstLetter name = some letter)
    (hfresh : ∀ earlier ∈ before, firstLetter earlier ≠ firstLetter name) :
    (seen.find? fun s => s.1 = letter) = none := by
  rw [List.find?_eq_none]
  rintro ⟨c, earlier⟩ hmem hc
  obtain rfl : c = letter := of_decide_eq_true hc
  obtain ⟨hearlier, hsame⟩ := (h.mem_iff c earlier).1 hmem
  exact hfresh earlier hearlier (hsame.trans hletter.symm)

theorem cons
    (h : Recorded seen before)
    (hletter : firstLetter name = some letter)
    (hfresh : ∀ earlier ∈ before, firstLetter earlier ≠ firstLetter name) :
    Recorded ((letter, name) :: seen) (before ++ [name]) := by
  refine ⟨ownLetters_append_singleton_iff.2 ⟨h.own, ne_empty_of_firstLetter hletter, hfresh⟩, ?_⟩
  intro c other
  rw [List.mem_cons, h.mem_iff, List.mem_append, List.mem_singleton, Prod.mk.injEq]
  constructor
  · rintro (⟨rfl, rfl⟩ | ⟨hbefore, hother⟩)
    · exact ⟨.inr rfl, hletter⟩
    · exact ⟨.inl hbefore, hother⟩
  · rintro ⟨hbefore | rfl, hother⟩
    · exact .inr ⟨hbefore, hother⟩
    · exact .inl ⟨Option.some.inj (hother.symm.trans hletter), rfl⟩

end Recorded

theorem checkLettersFrom_empty
    (seen : List (Char × String))
    (rest : List String) :
    checkLettersFrom seen ("" :: rest) = .error .empty := by
  simp only [checkLettersFrom, String.toList_empty]

theorem checkLettersFrom_of_mem
    (h : Recorded seen before)
    (hearlier : earlier ∈ before)
    (hshared : firstLetter earlier = some letter)
    (hletter : firstLetter name = some letter)
    (rest : List String) :
    checkLettersFrom seen (name :: rest) = .error (.shared earlier name letter) := by
  obtain ⟨tail, htail⟩ := List.head?_eq_some_iff.1 hletter
  simp only [checkLettersFrom, htail, h.find?_of_mem hearlier hshared]

theorem checkLettersFrom_of_fresh
    (h : Recorded seen before)
    (hletter : firstLetter name = some letter)
    (hfresh : ∀ earlier ∈ before, firstLetter earlier ≠ firstLetter name)
    (rest : List String) :
    checkLettersFrom seen (name :: rest) = checkLettersFrom ((letter, name) :: seen) rest := by
  obtain ⟨tail, htail⟩ := List.head?_eq_some_iff.1 hletter
  simp only [checkLettersFrom, htail, h.find?_of_fresh hletter hfresh]

end Steps

section Runs

variable {before : List String}

/-- The check goes over names with letters of their own, and has then seen these names. -/
theorem exists_recorded
    (h : OwnLetters before) :
    ∃ seen, Recorded seen before ∧
      ∀ rest, checkLetters (before ++ rest) = checkLettersFrom seen rest := by
  -- From the right: the last name is the one that the check comes to last.
  induction before using List.reverseRecOn with
  | nil =>
      exact ⟨[], recorded_nil, fun rest => rfl⟩
  | append_singleton before name ih =>
      obtain ⟨hbefore, hname, hfresh⟩ := ownLetters_append_singleton_iff.1 h
      obtain ⟨seen, hseen, hrun⟩ := ih hbefore
      obtain ⟨letter, hletter⟩ := exists_firstLetter hname
      refine ⟨(letter, name) :: seen, hseen.cons hletter hfresh, fun rest => ?_⟩
      rw [List.append_assoc, List.singleton_append, hrun,
        checkLettersFrom_of_fresh hseen hletter hfresh]

theorem checkLetters_of_ownLetters
    {names : List String}
    (h : OwnLetters names) :
    checkLetters names = .ok () := by
  obtain ⟨seen, -, hrun⟩ := exists_recorded h
  rw [← List.append_nil names, hrun]
  rfl

theorem checkLetters_of_empty
    (h : OwnLetters before)
    (rest : List String) :
    checkLetters (before ++ "" :: rest) = .error .empty := by
  obtain ⟨seen, -, hrun⟩ := exists_recorded h
  rw [hrun, checkLettersFrom_empty]

theorem checkLetters_of_shared
    {earlier name : String} {letter : Char}
    (h : OwnLetters before)
    (hearlier : earlier ∈ before)
    (hshared : firstLetter earlier = some letter)
    (hletter : firstLetter name = some letter)
    (rest : List String) :
    checkLetters (before ++ name :: rest) = .error (.shared earlier name letter) := by
  obtain ⟨seen, hseen, hrun⟩ := exists_recorded h
  rw [hrun, checkLettersFrom_of_mem hseen hearlier hshared hletter]

end Runs

section Faults

/-- The letter of the name at a place. -/
def letterAt (names : List String) (i : Nat) : Option Char :=
  names[i]?.bind firstLetter

/-- The name at a place is empty, or an earlier one has its letter. -/
def FaultAt (names : List String) (j : Nat) : Prop :=
  names[j]? = some "" ∨
    ∃ i letter, i < j ∧ letterAt names i = some letter ∧ letterAt names j = some letter

variable {names : List String} {i j k : Nat} {letter : Char}

theorem letterAt_eq_some_iff :
    letterAt names i = some letter ↔
      ∃ name, names[i]? = some name ∧ firstLetter name = some letter :=
  Option.bind_eq_some_iff

theorem letterAt_eq_of_lt
    (hi : i < names.length) :
    letterAt names i = firstLetter names[i] := by
  rw [letterAt, List.getElem?_eq_getElem hi, Option.bind_some]

/-- Names have letters of their own exactly if there is no fault among them. -/
theorem ownLetters_iff_forall_not_faultAt :
    OwnLetters names ↔ ∀ j, ¬ FaultAt names j := by
  constructor
  · rintro ⟨hne, hdistinct⟩ j (hempty | ⟨i, letter, hij, hi, hj⟩)
    · exact hne "" (List.mem_of_getElem? hempty) rfl
    · obtain ⟨later, hlater, -⟩ := letterAt_eq_some_iff.1 hj
      have hjlen : j < names.length := (List.getElem?_eq_some_iff.1 hlater).1
      have hilen : i < names.length := Nat.lt_trans hij hjlen
      rw [letterAt_eq_of_lt hilen] at hi
      rw [letterAt_eq_of_lt hjlen] at hj
      exact List.pairwise_iff_getElem.1 hdistinct i j hilen hjlen hij (hi.trans hj.symm)
  · intro h
    have hne : ∀ name ∈ names, name ≠ "" := by
      rintro name hname rfl
      obtain ⟨j, hj⟩ := List.mem_iff_getElem?.1 hname
      exact h j (.inl hj)
    refine ⟨hne, List.pairwise_iff_getElem.2 fun i j hi hj hij hshared => ?_⟩
    obtain ⟨letter, hletter⟩ := exists_firstLetter (hne _ (List.getElem_mem hi))
    refine h j (.inr ⟨i, letter, hij, ?_, ?_⟩)
    · rw [letterAt_eq_of_lt hi, hletter]
    · rw [letterAt_eq_of_lt hj, ← hshared, hletter]

theorem exists_first_faultAt
    (h : ¬ OwnLetters names) :
    ∃ j, FaultAt names j ∧ ∀ k < j, ¬ FaultAt names k := by
  classical
  rw [ownLetters_iff_forall_not_faultAt, not_forall_not] at h
  exact ⟨Nat.find h, Nat.find_spec h, fun k hk => Nat.find_min h hk⟩

theorem letterAt_of_letterAt_take
    (h : letterAt (names.take j) i = some letter) :
    i < j ∧ letterAt names i = some letter := by
  rw [letterAt, List.getElem?_take] at h
  split at h
  · exact ⟨‹i < j›, h⟩
  · cases h

theorem faultAt_of_faultAt_take
    (h : FaultAt (names.take j) k) :
    k < j ∧ FaultAt names k := by
  rcases h with hempty | ⟨i, letter, hik, hi, hk⟩
  · rw [List.getElem?_take] at hempty
    split at hempty
    · exact ⟨‹k < j›, .inl hempty⟩
    · cases hempty
  · obtain ⟨hkj, hk⟩ := letterAt_of_letterAt_take hk
    exact ⟨hkj, .inr ⟨i, letter, hik, (letterAt_of_letterAt_take hi).2, hk⟩⟩

theorem ownLetters_take
    (h : ∀ k < j, ¬ FaultAt names k) :
    OwnLetters (names.take j) := by
  rw [ownLetters_iff_forall_not_faultAt]
  intro k hk
  obtain ⟨hkj, hfault⟩ := faultAt_of_faultAt_take hk
  exact h k hkj hfault

/-- Before the first fault no letter stands at two places. -/
theorem place_unique
    (h : ∀ k < j, ¬ FaultAt names k)
    (hij : i < j)
    (hkj : k < j)
    (hi : letterAt names i = some letter)
    (hk : letterAt names k = some letter) :
    k = i := by
  rcases Nat.lt_trichotomy k i with hlt | heq | hlt
  · exact absurd (.inr ⟨k, letter, hlt, hk, hi⟩) (h i hij)
  · exact heq
  · exact absurd (.inr ⟨i, letter, hlt, hi, hk⟩) (h k hkj)

end Faults

section Failing

/-- The check of the names fails at a place: it passes the names before, and it fails
alike whatever names come after. -/
structure FailsAt (names : List String) (j : Nat) (fault : LetterFault) : Prop where
  fails : checkLetters names = .error fault
  before : checkLetters (names.take j) = .ok ()
  after : ∀ rest, checkLetters (names.take (j + 1) ++ rest) = .error fault

variable {names : List String} {i j : Nat}

theorem failsAt_of_run
    {name : String} {fault : LetterFault}
    (hfirst : ∀ k < j, ¬ FaultAt names k)
    (hj : names[j]? = some name)
    (hrun : ∀ rest, checkLetters (names.take j ++ name :: rest) = .error fault) :
    FailsAt names j fault := by
  have hafter : ∀ rest, checkLetters (names.take (j + 1) ++ rest) = .error fault := by
    intro rest
    rw [List.take_add_one, hj, Option.toList_some, List.append_assoc, List.singleton_append]
    exact hrun rest
  refine ⟨?_, checkLetters_of_ownLetters (ownLetters_take hfirst), hafter⟩
  rw [← List.take_append_drop (j + 1) names]
  exact hafter _

theorem failsAt_of_empty
    (hfirst : ∀ k < j, ¬ FaultAt names k)
    (hj : names[j]? = some "") :
    FailsAt names j .empty :=
  failsAt_of_run hfirst hj (checkLetters_of_empty (ownLetters_take hfirst))

theorem failsAt_of_shared
    {earlier later : String} {letter : Char}
    (hfirst : ∀ k < j, ¬ FaultAt names k)
    (hij : i < j)
    (hi : names[i]? = some earlier)
    (hj : names[j]? = some later)
    (hshared : firstLetter earlier = some letter)
    (hletter : firstLetter later = some letter) :
    FailsAt names j (.shared earlier later letter) := by
  have hearlier : earlier ∈ names.take j := by
    apply List.mem_of_getElem?
    rw [List.getElem?_take_of_lt hij, hi]
  exact failsAt_of_run hfirst hj
    (checkLetters_of_shared (ownLetters_take hfirst) hearlier hshared hletter)

/-- How the check ends where the first fault is. -/
theorem failsAt_of_first_faultAt
    (hfault : FaultAt names j)
    (hfirst : ∀ k < j, ¬ FaultAt names k) :
    names[j]? = some "" ∧ FailsAt names j .empty ∨
      ∃ i earlier later letter,
        i < j ∧ names[i]? = some earlier ∧ names[j]? = some later ∧
          firstLetter later = some letter ∧
          (∀ k < j, letterAt names k = some letter ↔ k = i) ∧
          FailsAt names j (.shared earlier later letter) := by
  rcases hfault with hempty | ⟨i, letter, hij, hi, hj⟩
  · exact .inl ⟨hempty, failsAt_of_empty hfirst hempty⟩
  · obtain ⟨earlier, hearlier, hshared⟩ := letterAt_eq_some_iff.1 hi
    obtain ⟨later, hlater, hletter⟩ := letterAt_eq_some_iff.1 hj
    have hplace : ∀ k < j, letterAt names k = some letter ↔ k = i := by
      intro k hkj
      constructor
      · exact place_unique hfirst hij hkj hi
      · rintro rfl
        exact hi
    exact .inr ⟨i, earlier, later, letter, hij, hearlier, hlater, hletter, hplace,
      failsAt_of_shared hfirst hij hearlier hlater hshared hletter⟩

theorem checkLetters_eq_ok_iff :
    checkLetters names = .ok () ↔ OwnLetters names := by
  refine ⟨fun hok => ?_, checkLetters_of_ownLetters⟩
  by_contra h
  obtain ⟨j, hfault, hfirst⟩ := exists_first_faultAt h
  rcases failsAt_of_first_faultAt hfault hfirst with
    ⟨-, hfails⟩ | ⟨i, earlier, later, letter, -, -, -, -, -, hfails⟩
  · cases hok.symm.trans hfails.fails
  · cases hok.symm.trans hfails.fails

end Failing

/-- The check of names passes exactly if all of them have letters and no two the same.
Otherwise it fails at the first place where the name is empty or an earlier one has its
letter.  The fault of an empty name says no more than that; the other fault names the only
earlier name with the letter, then the name at the place, and the letter, and so does its
message. -/
theorem checkLetters_fails_at_first_fault
    (names : List String) :
    (checkLetters names = .ok () ↔ OwnLetters names) ∧
      (¬ OwnLetters names →
        ∃ j, FaultAt names j ∧ (∀ k < j, ¬ FaultAt names k) ∧
          (names[j]? = some "" ∧ FailsAt names j .empty ∨
            ∃ i earlier later letter,
              i < j ∧ names[i]? = some earlier ∧ names[j]? = some later ∧
                firstLetter later = some letter ∧
                (∀ k < j, letterAt names k = some letter ↔ k = i) ∧
                FailsAt names j (.shared earlier later letter))) ∧
      ∀ earlier later letter,
        (LetterFault.shared earlier later letter).message =
          "Tag kinds '" ++ earlier ++ "' and '" ++ later ++ "' share kind letter '" ++
            String.singleton letter ++ "'" := by
  refine ⟨checkLetters_eq_ok_iff, fun h => ?_, fun earlier later letter => rfl⟩
  obtain ⟨j, hfault, hfirst⟩ := exists_first_faultAt h
  exact ⟨j, hfault, hfirst, failsAt_of_first_faultAt hfault hfirst⟩

/-- Names with a shared letter in the third place, and an empty name and another shared letter
after it. -/
def clashingNames : List String :=
  ["type", "data", "term", "", "datum"]

theorem clashingNames_fail_at_term :
    ¬ OwnLetters clashingNames ∧
      FailsAt clashingNames 2 (.shared "type" "term" 't') := by
  have hclash : ¬ OwnLetters clashingNames := fun h =>
    h.ne_empty "" (by decide) rfl
  refine ⟨hclash, ?_⟩
  have hcheck : checkLetters clashingNames = .error (.shared "type" "term" 't') := by
    decide
  obtain ⟨j, -, -, ⟨-, hfails⟩ | ⟨i, earlier, later, letter, -, -, hj, -, -, hfails⟩⟩ :=
    (checkLetters_fails_at_first_fault clashingNames).2.1 hclash
  · cases hcheck.symm.trans hfails.fails
  · cases hcheck.symm.trans hfails.fails
    have hterm : clashingNames[2]? = clashingNames[j]? := hj.symm
    obtain rfl : 2 = j := (List.getElem?_inj (by decide) (by decide)).1 hterm
    exact hfails

end Tag
end HaskellTags
