import HaskellTags.Tag.Basic

/-!
# The line of a tag

A tag as one line of a tags file: fields between tabs, the pattern as it is,
and the optional fields in a fixed order.  The number of its line is shown with all
its digits; `TagsFile.format` has the limit on them.
-/

namespace HaskellTags
namespace Tag

/-- The field of a parent. -/
def parentField : Option Parent → String
  | some p => "\t" ++ p.kind.name ++ ":" ++ p.name
  | none => ""

/-- The field of a signature. -/
def signatureField : Option String → String
  | some s => "\tsignature:(" ++ s ++ ")"
  | none => ""

/-- The field of an access grade. -/
def accessField : Option Access → String
  | some a => "\taccess:" ++ a.name
  | none => ""

/-- The line of a tag, without its end. -/
def render (t : Tag) : String :=
  t.name ++ "\t" ++ t.file ++ "\t/^" ++ t.pattern ++ "$/;\"\t" ++
    String.singleton t.kind.letter ++ "\tline:" ++ toString t.line ++
    parentField t.parent ++ signatureField t.signature ++ accessField t.access

end Tag
end HaskellTags
