import HaskellTags.Settings.Basic
import HaskellTags.Settings.Extension
import HaskellTags.Text.Lines

/-!
# Settings from the environment

Three variables choose settings: whether their reading is strict, whether output is sorted,
and which extensions are looked for.  They come after the settings file and before the
command line.
-/

namespace HaskellTags

/-- The variables that are set, each with its text. -/
abbrev Environment := List (String × String)

namespace Environment

/-- The text of a variable. -/
def get? (env : Environment) (name : String) : Option String :=
  (env.find? fun v => v.1 = name).map Prod.snd

/-- An environment with a variable set, or unset. -/
def set (env : Environment) (name : String) (text : Option String) : Environment :=
  (env.filter fun v => v.1 ≠ name) ++ (text.toList.map fun t => (name, t))

/-- The words that switch a flag on. -/
def onWords : List String := ["1", "true", "yes", "on"]

/-- Whether a text switches a flag on, blanks and case aside. -/
def isOn (text : String) : Bool :=
  onWords.contains (Text.trim text).toLower

/-- Whether a flag is on. -/
def flag (env : Environment) (name : String) (byDefault : Bool) : Bool :=
  match env.get? name with
  | some text => isOn text
  | none => byDefault

/-- The variable that makes the reading of settings strict. -/
def strictVariable : String := "HSTAGS_STRICT_CONFIG"

/-- The variable that chooses whether output is sorted. -/
def sortVariable : String := "HSTAGS_SORT"

/-- The variable that chooses the extensions. -/
def extensionsVariable : String := "HSTAGS_EXTENSIONS"

/-- Whether the reading of settings is strict. -/
def isStrict (env : Environment) : Bool :=
  env.flag strictVariable false

/-- The extensions of a list with commas, without the blank ones. -/
def extensionsOf (text : String) : List String :=
  ((Text.splitText (· == ',') text).filter fun e => !Text.isBlankText e).map
    Settings.normalExtension

/-- What the environment chooses. -/
def choices (env : Environment) : Settings.Choices :=
  { sortOutput := (env.get? sortVariable).map isOn
    extensions :=
      match (env.get? extensionsVariable).map extensionsOf with
      | some (e :: es) => some (e :: es)
      | _ => none }

end Environment
end HaskellTags
