import HaskellTags.Value.Display

/-!
# Enumerations

A value that is the word of a member stands for it.  Any other value is a stranger to
the enumeration, and the message about it calls the enumeration by its title.
-/

namespace HaskellTags

/-- An enumeration: its title in messages, and its members by their words. -/
structure Enumeration (α : Type) where
  title : String
  ofWord? : String → Option α

/-- A value that is no member of an enumeration. -/
structure Stranger where
  value : Value
  title : String

/-- The wording about a stranger. -/
def Stranger.message (s : Stranger) : String :=
  s.value.described ++ " is not a valid " ++ s.title

/-- The member that a value stands for. -/
def Enumeration.member {α : Type} (e : Enumeration α) (v : Value) : Except Stranger α :=
  match v.text?.bind e.ofWord? with
  | some a => .ok a
  | none => .error ⟨v, e.title⟩

end HaskellTags
