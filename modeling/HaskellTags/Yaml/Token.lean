/-!
# Tokens of a YAML text

What the reader of YAML 1.1 makes of the characters before it looks for documents and
nodes.  Layout has become tokens too: where a block of items or of keys starts and ends.
-/

namespace HaskellTags
namespace Yaml

/-- A directive before a document. -/
inductive Directive
  | version (major : Nat)
  | handle (name : String) (stands : String)
  | other
  deriving DecidableEq, Repr

/-- A token. -/
inductive Token
  | directive (d : Directive)
  | documentStart
  | documentEnd
  | streamEnd
  | blockSequenceStart
  | blockMappingStart
  | blockEnd
  | flowSequenceStart
  | flowMappingStart
  | flowSequenceEnd
  | flowMappingEnd
  | key
  | value
  | blockEntry
  | flowEntry
  /-- A second use of an anchored node. -/
  | reference (name : String)
  | anchor (name : String)
  | tag (handle : Option String) (suffix : String)
  | scalar (text : String) (plain : Bool)
  deriving DecidableEq, Repr

end Yaml
end HaskellTags
