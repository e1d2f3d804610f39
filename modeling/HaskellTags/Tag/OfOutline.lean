import HaskellTags.Log.Record
import HaskellTags.Outline.Basic
import HaskellTags.Tag.Basic

/-!
# The tags of an outline

The tags of a module in source order: the module itself, its imports, and for
each declaration the declared type with its constructors or the functions of a
signature.  The pattern of a tag is looked up in the lines of the source.  The
extraction leaves notes: log records, and every type that it rendered.
-/

namespace HaskellTags
namespace Tag

/-- Why an outline has no tags. -/
inductive Failure
  /-- A place on a line that the source does not have. -/
  | lineOutOfRange
  /-- A line number too large to be looked up. -/
  | lineTooLarge
  /-- A form of source without an outline. -/
  | unsupported (form : String) (file : Option String)
  deriving DecidableEq, Repr

/-- The wording of a failure; an empty file name is not shown. -/
def Failure.message : Failure → String
  | .lineOutOfRange => "list index out of range"
  | .lineTooLarge => "cannot fit 'int' into an index-sized integer"
  | .unsupported form file =>
    "Unsupported module form '" ++ form ++ "'" ++
      (match file with
        | some path => if path.isEmpty then "" else " in " ++ path
        | none => "")

/-- What an extraction leaves on its way. -/
inductive Note
  | log (r : Log.Record)
  | rendered (type : String)
  deriving DecidableEq, Repr

/-- The log records among notes. -/
def Note.record? : Note → Option Log.Record
  | .log r => some r
  | .rendered _ => none

/-- The rendered types among notes. -/
def Note.rendered? : Note → Option String
  | .log _ => none
  | .rendered type => some type

/-- An extraction. -/
abbrev Extraction := Journal Note Failure

/-- The line with a number counted from one; numbers from zero downwards count
from the end of the source. -/
def lineAt (lines : List String) (number : Int) : Option String :=
  let index := number - 1
  if 0 ≤ index then lines[index.toNat]?
  else
    let fromEnd := index + lines.length
    if 0 ≤ fromEnd then lines[fromEnd.toNat]? else none

/-- Whether a line number can be looked up: counted from zero, it has 64 bits. -/
def isLineNumber (number : Int) : Bool :=
  -(Nat.pow 2 63) ≤ number - 1 && number - 1 < Nat.pow 2 63

/-- A tag at a place. -/
def at? (lines : List String) (name : String) (kind : Kind) (span : Span)
    (parent : Option Parent) (signature : Option String) (access : Option Access) :
    Except Failure Tag :=
  match lineAt lines span.startLine with
  | none => .error (if isLineNumber span.startLine then .lineOutOfRange else .lineTooLarge)
  | some pattern => .ok ⟨name, span.file, pattern, kind, span.startLine, parent, signature, access⟩

/-- How an import brings its names into scope: a qualified one is protected,
one without a list is public, one that hides names is private, and one with a
list has no grade. -/
def accessOf (i : Import) : Option Access :=
  if i.qualified then some .isProtected
  else
    match i.names with
    | none => some .isPublic
    | some list => if list.hides then some .isPrivate else none

/-- The tag of a module's name. -/
def ofHead (lines : List String) (name : ModuleName) : Except Failure Tag :=
  at? lines name.text .header name.span none none none

/-- The tag of an import. -/
def ofImport (lines : List String) (i : Import) : Except Failure Tag :=
  at? lines i.source.text .importing i.span none (i.asName.map ModuleName.text) (accessOf i)

/-- The tag of a constructor. -/
def ofConstructor (lines : List String) (parent : Parent) (c : Constructor) :
    Except Failure Tag :=
  at? lines c.name.text .constructor c.name.span (some parent) none none

/-- The tag of a function. -/
def ofFunction (lines : List String) (signature : String) (name : Name) : Except Failure Tag :=
  at? lines name.text .function name.span none (some signature) none

/-- The kind of a declared type. -/
def kindOf : DataForm → Kind
  | .data => .data
  | .newtype => .newtype

/-- The record about a declaration without tags. -/
def skipped (span : Span) (form : String) : Log.Record :=
  .of .debug .tags
    ("Skipping " ++ form ++ " declaration at " ++ span.file ++ ":" ++ toString span.startLine)

/-- A renderer of types, which sees the text of a type and its place. -/
abbrev Renderer := TypeText → String

/-- The renderer that looks at the text of a type alone. -/
def Renderer.ofText (render : String → String) : Renderer :=
  fun type => render type.text

/-- The tags of a declaration.  The type of a signature is rendered once, before
its names are looked at. -/
def ofDeclWith (render : Renderer) (lines : List String) : Decl → Extraction (List Tag)
  | .synonym _ head => .ofExcept do
    return [← at? lines head.text .synonym head.span none none none]
  | .data _ form head constructors => .ofExcept do
    let kind := kindOf form
    let tag ← at? lines head.text kind head.span none none none
    let rest ← constructors.mapM (ofConstructor lines ⟨kind, head.text⟩)
    return tag :: rest
  | .signature _ names type => do
    Journal.note (.rendered type.text)
    .ofExcept (names.mapM (ofFunction lines (render type)))
  | .other span form => do
    Journal.note (.log (skipped span form))
    return []
  | .loose _ => return []

/-- The record about a finished module. -/
def finished (tags : Nat) (decls : Nat) : Log.Record :=
  .of .debug .tags
    ("Created " ++ toString tags ++ " tags from " ++ toString decls ++ " declarations")

/-- The tags of several declarations. -/
def ofDecls (render : Renderer) (lines : List String) :
    List Decl → Extraction (List Tag)
  | [] => return []
  | d :: rest => do
    let tags ← ofDeclWith render lines d
    let others ← ofDecls render lines rest
    return tags ++ others

/-- The tags of a module. -/
def ofModuleWith (render : Renderer) (lines : List String) (m : Module) :
    Extraction (List Tag) := do
  let head ← .ofExcept (m.head.toList.mapM (ofHead lines))
  let imports ← .ofExcept (m.imports.mapM (ofImport lines))
  let decls ← ofDecls render lines m.decls
  let tags := head ++ imports ++ decls
  Journal.note (.log (finished tags.length m.decls.length))
  return tags

/-- The tags of an outline. -/
def ofOutlineWith (render : Renderer) (lines : List String) :
    Outline → Extraction (List Tag)
  | .haskell m => ofModuleWith render lines m
  | .unsupported form file => .fail (.unsupported form file)

section Texts

variable (render : String → String) (lines : List String)

/-- The tags of a declaration whose types are rendered by their texts. -/
def ofDecl (d : Decl) : Extraction (List Tag) :=
  ofDeclWith (.ofText render) lines d

/-- The tags of a module whose types are rendered by their texts. -/
def ofModule (m : Module) : Extraction (List Tag) :=
  ofModuleWith (.ofText render) lines m

/-- The tags of an outline whose types are rendered by their texts. -/
def ofOutline (o : Outline) : Extraction (List Tag) :=
  ofOutlineWith (.ofText render) lines o

end Texts

end Tag
end HaskellTags
