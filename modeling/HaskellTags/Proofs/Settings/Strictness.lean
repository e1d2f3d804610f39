import HaskellTags.Proofs.Journal
import HaskellTags.Settings.Load

/-!
# Strict and lenient readings of settings

A strict reading fails where a lenient one only warns.  So a strict reading that
succeeds has met nothing to warn about, and the lenient one comes to the same
settings: every part of the strict reading refines that of the lenient one.
-/

namespace HaskellTags
namespace Settings

open Journal

section Entries

theorem refines_complain
    {α : Type}
    (message : α → String)
    (problem : α) :
    Refines (complain true message problem) (complain false message problem) :=
  refines_fail problem _

theorem refines_chooseFrom
    (chosen : Choices)
    (entries : Entries) :
    Refines (chooseFrom true chosen entries) (chooseFrom false chosen entries) := by
  induction entries generalizing chosen with
  | nil =>
      exact refines_refl _
  | cons entry rest ih =>
      unfold chooseFrom
      cases choiceOf entry with
      | ok choice =>
          exact ih (choice.over chosen)
      | error fault =>
          cases fault with
          | limit fault =>
              exact refines_refl _
          | problem problem =>
              refine Refines.bind ?_ fun _ => ih chosen
              exact (refines_complain Problem.message problem).mapFault _

end Entries

section Files

theorem refines_withoutEntries
    (refusal : Refusal) :
    Refines (withoutEntries true refusal) (withoutEntries false refusal) :=
  refines_fail _ _

theorem refines_entriesOf
    (v : Value) :
    Refines (entriesOf true v) (entriesOf false v) := by
  unfold entriesOf
  split
  · exact refines_refl _
  · exact refines_refl _
  · refine Refines.bind ?_ fun _ => refines_refl _
    exact (refines_complain Refusal.message _).mapFault _

theorem refines_entriesAt
    (yaml : Yaml.Reader)
    (root : Files.Entry)
    (path : String) :
    Refines (entriesAt yaml root true path) (entriesAt yaml root false path) := by
  unfold entriesAt
  cases Files.read root (Files.Path.normal path) with
  | error e =>
      dsimp only
      split
      · exact refines_withoutEntries _
      · exact refines_refl _
  | ok octets =>
      dsimp only
      cases decodeText octets with
      | error e =>
          exact refines_refl _
      | ok text =>
          dsimp only
          cases parse yaml path text with
          | error fault =>
              cases fault with
              | malformed detail =>
                  exact refines_withoutEntries _
              | scalar fault =>
                  exact refines_refl _
              | excess excess =>
                  exact refines_refl _
          | ok v =>
              exact refines_entriesOf v

theorem refines_choicesAt
    (yaml : Yaml.Reader)
    (root : Files.Entry)
    (path : String) :
    Refines (choicesAt yaml root true path) (choicesAt yaml root false path) := by
  refine Refines.bind (refines_entriesAt yaml root path) fun entries => ?_
  exact (refines_chooseFrom {} entries).mapFault _

/-- A strict reading that succeeds comes to the settings of the lenient one. -/
theorem refines_load
    (yaml : Yaml.Reader)
    (root : Files.Entry)
    (env : Environment)
    (path : Option String) :
    Refines (load yaml root env true path) (load yaml root env false path) := by
  cases path with
  | none =>
      exact refines_refl _
  | some path =>
      exact (refines_choicesAt yaml root path).bind fun _ => refines_refl _

end Files

section Variables

theorem get?_set_self
    (env : Environment)
    (name : String)
    (text : Option String) :
    (env.set name text).get? name = text := by
  have hunset : (env.filter fun v => v.1 ≠ name).find? (fun v => v.1 = name) = none := by
    simp
  rw [Environment.get?, Environment.set, List.find?_append, hunset]
  cases text with
  | none =>
      rfl
  | some t =>
      simp

theorem get?_set_of_ne
    {name other : String}
    (hne : name ≠ other)
    (env : Environment)
    (text : Option String) :
    (env.set other text).get? name = env.get? name := by
  have hkept :
      ∀ v : String × String, (v.1 ≠ other ∧ v.1 = name) ↔ v.1 = name := by
    intro v
    constructor
    · exact And.right
    · intro hv
      exact ⟨hv ▸ hne, hv⟩
  have hset : (text.toList.map fun t => (other, t)).find? (fun v => v.1 = name) = none := by
    simp [hne.symm]
  simp only [Environment.set, Environment.get?, List.find?_append, hset, Option.or_none,
    List.find?_filter, decide_eq_true_eq, hkept]

/-- The variable that makes a reading strict chooses no setting. -/
theorem choices_set_strictVariable
    (env : Environment) :
    (env.set Environment.strictVariable none).choices = env.choices := by
  have hsort : Environment.sortVariable ≠ Environment.strictVariable := by decide
  have hextensions :
      Environment.extensionsVariable ≠ Environment.strictVariable := by decide
  simp only [Environment.choices, get?_set_of_ne hsort, get?_set_of_ne hextensions]

theorem isStrict_set_strictVariable
    (env : Environment) :
    Environment.isStrict (env.set Environment.strictVariable none) = false := by
  simp [Environment.isStrict, Environment.flag, get?_set_self]

theorem load_set_strictVariable
    (yaml : Yaml.Reader)
    (root : Files.Entry)
    (env : Environment)
    (strict : Bool)
    (path : Option String) :
    load yaml root (env.set Environment.strictVariable none) strict path =
      load yaml root env strict path := by
  simp only [load, choices_set_strictVariable]

end Variables

end Settings
end HaskellTags
