import HaskellTags.Value.Enumeration

/-!
# Tags

A tag names an entity of a module and says where it is defined: the file, the
line, and the text of that line as a pattern to look for.
-/

namespace HaskellTags
namespace Tag

/-- The kinds of entities. -/
inductive Kind
  | header
  | importing
  | synonym
  | data
  | newtype
  | constructor
  | function
  deriving DecidableEq, Repr

namespace Kind

/-- All kinds. -/
def all : List Kind := [.header, .importing, .synonym, .data, .newtype, .constructor, .function]

/-- The name of a kind. -/
def name : Kind → String
  | .header => "module"
  | .importing => "import"
  | .synonym => "type"
  | .data => "data"
  | .newtype => "newtype"
  | .constructor => "constructor"
  | .function => "function"

/-- The letter of a kind, the first of its name. -/
def letter : Kind → Char
  | .header => 'm'
  | .importing => 'i'
  | .synonym => 't'
  | .data => 'd'
  | .newtype => 'n'
  | .constructor => 'c'
  | .function => 'f'

/-- The kind of a name. -/
def ofName? (name : String) : Option Kind :=
  all.find? fun kind => kind.name = name

/-- The kinds as an enumeration. -/
def enumeration : Enumeration Kind := ⟨"TagKind", ofName?⟩

end Kind

/-- How an import brings its names into scope. -/
inductive Access
  | isPublic
  | isPrivate
  | isProtected
  deriving DecidableEq, Repr

namespace Access

/-- All grades of access. -/
def all : List Access := [.isPublic, .isPrivate, .isProtected]

/-- The word of a grade. -/
def name : Access → String
  | .isPublic => "public"
  | .isPrivate => "private"
  | .isProtected => "protected"

/-- The grade of a word. -/
def ofName? (name : String) : Option Access :=
  all.find? fun access => access.name = name

/-- The grades as an enumeration. -/
def enumeration : Enumeration Access := ⟨"TagAccess", ofName?⟩

end Access

/-- The type that a constructor belongs to. -/
structure Parent where
  kind : Kind
  name : String
  deriving DecidableEq, Repr

end Tag

/-- A tag. -/
structure Tag where
  name : String
  file : String
  /-- The text of the defining line. -/
  pattern : String
  kind : Tag.Kind
  /-- The defining line, counted from one. -/
  line : Int
  parent : Option Tag.Parent
  /-- The type of a function, the alias of an import. -/
  signature : Option String
  access : Option Tag.Access
  deriving DecidableEq, Repr

namespace Tag

/-- An optional text as a value. -/
def optionalText (s : Option String) : Value :=
  match s with
  | some s => .text s
  | none => .null

/-- The parent of a tag as a value. -/
def Parent.toValue (p : Parent) : Value :=
  .map [(.text "kind", .text p.kind.name), (.text "name", .text p.name)]

/-- A tag as a value with all its fields. -/
def toValue (t : Tag) : Value :=
  .map [
    (.text "name", .text t.name),
    (.text "file", .text t.file),
    (.text "pattern", .text t.pattern),
    (.text "kind", .text t.kind.name),
    (.text "line", .int t.line),
    (.text "parent", match t.parent with
      | some p => p.toValue
      | none => .null),
    (.text "signature", optionalText t.signature),
    (.text "access", optionalText (t.access.map Access.name))]

end Tag
end HaskellTags
