import HaskellTags.Tag.Basic

/-!
# Kind letters

A kind is written as the first letter of its name, so the first letters have to
differ.
-/

namespace HaskellTags
namespace Tag

/-- Why letters do not tell kinds apart. -/
inductive LetterFault
  /-- A kind without a letter. -/
  | empty
  /-- Two kinds with one letter. -/
  | shared (earlier later : String) (letter : Char)
  deriving DecidableEq, Repr

/-- The wording of a fault. -/
def LetterFault.message : LetterFault → String
  | .empty => "string index out of range"
  | .shared earlier later letter =>
    "Tag kinds '" ++ earlier ++ "' and '" ++ later ++ "' share kind letter '" ++
      String.singleton letter ++ "'"

/-- Checks the names one by one against the letters seen before. -/
def checkLettersFrom (seen : List (Char × String)) : List String → Except LetterFault Unit
  | [] => .ok ()
  | name :: rest =>
    match name.toList with
    | [] => .error .empty
    | letter :: _ =>
      match seen.find? fun s => s.1 = letter with
      | some (_, earlier) => .error (.shared earlier name letter)
      | none => checkLettersFrom ((letter, name) :: seen) rest

/-- Checks that every name has a first letter of its own. -/
def checkLetters (names : List String) : Except LetterFault Unit :=
  checkLettersFrom [] names

/-- The letters of the kinds tell them apart. -/
theorem checkLetters_kinds :
    checkLetters (Kind.all.map Kind.name) = .ok () := by
  rfl

/-- The letter of a kind is the first of its name. -/
theorem letter_eq_head
    (k : Kind) :
    k.name.toList.head? = some k.letter := by
  cases k <;> decide

end Tag
end HaskellTags
