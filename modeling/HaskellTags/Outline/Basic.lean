import HaskellTags.Value.Enumeration

/-!
# Outlines

What a module declares, with the places in the source: the name of the module,
its imports, and its top-level declarations.  Lines and columns count from one.
-/

namespace HaskellTags

/-- A place in a source file. -/
structure Span where
  file : String
  startLine : Int
  startColumn : Int
  endLine : Int
  endColumn : Int
  deriving DecidableEq, Repr

/-- A name that a declaration defines. -/
structure Name where
  text : String
  span : Span
  /-- The name is an operator. -/
  symbolic : Bool
  deriving DecidableEq, Repr

/-- The name of a module. -/
structure ModuleName where
  text : String
  span : Span
  deriving DecidableEq, Repr

/-- The list of names of an import. -/
structure ImportList where
  /-- The names are left out instead of brought in. -/
  hides : Bool
  names : List String
  deriving DecidableEq, Repr

/-- An import. -/
structure Import where
  span : Span
  source : ModuleName
  qualified : Bool
  asName : Option ModuleName
  names : Option ImportList
  deriving DecidableEq, Repr

/-- The two ways of declaring a type with constructors. -/
inductive DataForm
  | data
  | newtype
  deriving DecidableEq, Repr

/-- The word of a form. -/
def DataForm.name : DataForm → String
  | .data => "data"
  | .newtype => "newtype"

/-- The form of a word. -/
def DataForm.ofName? (name : String) : Option DataForm :=
  [DataForm.data, .newtype].find? fun form => form.name = name

/-- The forms as an enumeration. -/
def DataForm.enumeration : Enumeration DataForm := ⟨"DataOrNew", ofName?⟩

/-- A constructor of a type. -/
structure Constructor where
  span : Span
  name : Name
  deriving DecidableEq, Repr

/-- The type of a signature as written, and its place if it has one of its own. -/
structure TypeText where
  text : String
  span : Option Span
  deriving DecidableEq, Repr

/-- A top-level declaration. -/
inductive Decl
  | synonym (span : Span) (head : Name)
  | data (span : Span) (form : DataForm) (head : Name) (constructors : List Constructor)
  | signature (span : Span) (names : List Name) (type : TypeText)
  /-- A declaration of another form, which has no tags. -/
  | other (span : Span) (form : String)
  /-- A constructor outside a declaration, which has no tags either. -/
  | loose (constructor : Constructor)
  deriving DecidableEq, Repr

/-- The place of a declaration. -/
def Decl.span : Decl → Span
  | .synonym span _ => span
  | .data span _ _ _ => span
  | .signature span _ _ => span
  | .other span _ => span
  | .loose c => c.span

/-- The outline of a module. -/
structure Module where
  head : Option ModuleName
  imports : List Import
  decls : List Decl
  deriving DecidableEq, Repr

/-- What a source turns out to be. -/
inductive Outline
  | haskell (m : Module)
  /-- A form of source without an outline, and its file if that is known. -/
  | unsupported (form : String) (file : Option String)
  deriving DecidableEq, Repr

end HaskellTags
