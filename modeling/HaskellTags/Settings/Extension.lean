import HaskellTags.Text.Blank

/-!
# Extensions

The normal form of an extension has no blanks around it and a point in front.
-/

namespace HaskellTags
namespace Settings

/-- The normal form of an extension; of blanks alone nothing is left. -/
def normalExtension (s : String) : String :=
  let trimmed := Text.trim s
  if trimmed.isEmpty || trimmed.toList.head? = some '.' then trimmed else "." ++ trimmed

/-- The normal forms of some extensions, without those of which nothing is left. -/
def normalExtensions (extensions : List String) : List String :=
  (extensions.map normalExtension).filter fun e => !e.isEmpty

end Settings
end HaskellTags
