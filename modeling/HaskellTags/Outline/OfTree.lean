import HaskellTags.Outline.Warning
import HaskellTags.Tree.Region

/-!
# The outline of a concrete tree

Every named child of the root that is no comment is a header, an import, a
block of either, or a declaration.  Names are found by field, then by type
among the nodes of a declaration's head.  What cannot be named is left out or
kept as a declaration of another form, with a warning.
-/

namespace HaskellTags
namespace Outline

open Text HaskellTags.Tree

/-- A source file and its octets. -/
structure Source where
  file : String
  octets : Octets

section Names

/-- The place of a node. -/
def spanOf (src : Source) (n : Node) : Span :=
  ⟨src.file, n.label.start.row + 1, n.label.start.column + 1,
    n.label.stop.row + 1, n.label.stop.column + 1⟩

/-- The node whose text is the name: inside parentheses it is the first named
child. -/
def nameNode (n : Node) : Node :=
  if Grammar.parenthesized.contains n.type then n.namedChildren.head?.getD n else n

/-- The name that a node writes. -/
def nameOf (src : Source) (n : Node) : Name :=
  let inner := nameNode n
  ⟨inner.text src.octets, spanOf src inner, Grammar.symbols.contains inner.type⟩

/-- The module name that a node writes. -/
def moduleNameOf (src : Source) (n : Node) : ModuleName :=
  ⟨n.text src.octets, spanOf src n⟩

end Names

section Imports

/-- The name in a module header. -/
def headerName (src : Source) (n : Node) : Option ModuleName :=
  let found := (n.childByField "module").or (n.firstOf Grammar.moduleNames)
  found.map (moduleNameOf src)

/-- The list of names of an import. -/
def importList (src : Source) (n list : Node) : ImportList :=
  ⟨n.hasToken Grammar.hidingWord || list.hasToken Grammar.hidingWord,
    (list.namedChildren.filter fun c => !c.isComment).map fun c => c.text src.octets⟩

/-- The import that a node writes. -/
def importOf (src : Source) (n : Node) : Option Import :=
  (n.childByField "module").map fun moduleNode =>
    { span := spanOf src n
      source := moduleNameOf src moduleNode
      qualified := n.hasToken Grammar.qualifiedWord
      asName := (n.childByField "alias").map (moduleNameOf src)
      names := (n.childByField "names").map (importList src n) }

end Imports

section Declarations

/-- The node in a declaration's head, or below it, that names the declared type. -/
def typeNameIn (child : Node) : Option Node :=
  if Grammar.typeNames.contains child.type || Grammar.parenthesized.contains child.type then
    some child
  else
    let operator := if child.type = Grammar.infixForm then child.childByField "operator" else none
    operator.or (child.firstOf Grammar.typeNames)

/-- The node that names the declared type. -/
def typeName (n : Node) : Option Node :=
  (n.childByField "name").or (n.headChildren.findSome? typeNameIn)

/-- The types of nodes that name a constructor. -/
def constructorTypes : List String :=
  Grammar.constructorNames ++ Grammar.parenthesized

/-- The nodes that name the constructors of one constructor declaration. -/
def constructorNames (n : Node) : List Node :=
  if n.type = Grammar.typedConstructor then Node.outermostIn constructorTypes n.headChildren
  else ((n.childByField "name").or (n.firstOf constructorTypes)).toList

/-- The constructors that a declaration of constructors writes. -/
def constructorsOf (src : Source) (n : Node) : List Constructor :=
  (constructorNames n).map fun name => ⟨spanOf src n, nameOf src name⟩

/-- A declaration of a type with constructors. -/
def dataOf (src : Source) (form : DataForm) (n : Node) : Decl × List Warning :=
  match typeName n with
  | none => (.other (spanOf src n) n.type, [.dataWithoutName form n.line])
  | some head =>
    let constructors := (n.outermost Grammar.constructors).flatMap (constructorsOf src)
    (.data (spanOf src n) form (nameOf src head) constructors, [])

/-- The types of nodes that name a function. -/
def functionTypes : List String :=
  Grammar.variableNames ++ Grammar.parenthesized

/-- The nodes that name the functions of a signature. -/
def signatureNames (n : Node) : List Node :=
  match n.childByField "names" with
  | some list => list.namedChildren.filter fun c => functionTypes.contains c.type
  | none =>
    match n.childByField "name" with
    | some name => [name]
    | none => Node.outermostIn functionTypes n.headChildren

/-- Where the type of a signature without a type field starts. -/
def typeStart (n : Node) : Nat :=
  match n.children.find? fun c => c.type = Grammar.colons with
  | some colons => colons.label.endByte
  | none => n.label.startByte

/-- The type of a signature. -/
def signatureType (src : Source) (n : Node) : TypeText :=
  match n.childByField "type" with
  | some type => ⟨type.textWithoutComments src.octets, some (spanOf src type)⟩
  | none => ⟨n.regionText src.octets (typeStart n) n.label.endByte, none⟩

/-- A signature. -/
def signatureOf (src : Source) (n : Node) : Decl × List Warning :=
  match signatureNames n with
  | [] => (.other (spanOf src n) n.type, [.signatureWithoutNames n.line])
  | names => (.signature (spanOf src n) (names.map (nameOf src)) (signatureType src n), [])

/-- A type synonym; one without a name is a declaration of another form. -/
def synonymOf (src : Source) (n : Node) : Decl :=
  match typeName n with
  | some head => .synonym (spanOf src n) (nameOf src head)
  | none => .other (spanOf src n) n.type

/-- The declaration that a node writes. -/
def declOf (src : Source) (n : Node) : Decl × List Warning :=
  if Grammar.synonyms.contains n.type then (synonymOf src n, [])
  else if n.type = Grammar.dataType then dataOf src .data n
  else if n.type = Grammar.newtype then dataOf src .newtype n
  else if n.type = Grammar.signature then signatureOf src n
  else (.other (spanOf src n) n.type, [])

end Declarations

section Modules

/-- A part of a module. -/
inductive Part
  | header (name : Option ModuleName)
  | importing (i : Import)
  | decl (d : Decl)
  deriving DecidableEq, Repr

/-- The header that a node writes. -/
def headerPart (src : Source) (n : Node) : List Part × List Warning :=
  match headerName src n with
  | some name => ([.header (some name)], [])
  | none => ([.header none], [.headerWithoutName])

/-- The import that a node writes; one without a module is left out. -/
def importPart (src : Source) (n : Node) : List Part × List Warning :=
  match importOf src n with
  | some i => ([.importing i], [])
  | none => ([], [.importWithoutModule n.line])

/-- The declaration that a node writes. -/
def declPart (src : Source) (n : Node) : List Part × List Warning :=
  ([.decl (declOf src n).1], (declOf src n).2)

/-- The parts that several nodes write. -/
def partsOfAll (f : Node → List Part × List Warning) (ns : List Node) :
    List Part × List Warning :=
  (ns.flatMap fun n => (f n).1, ns.flatMap fun n => (f n).2)

/-- The parts that a child of the root writes. -/
def partsOf (src : Source) (n : Node) : List Part × List Warning :=
  if n.isComment then ([], [])
  else if n.type = Grammar.header then headerPart src n
  else if n.type = Grammar.imports then
    partsOfAll (importPart src) (n.namedChildren.filter fun c => c.type = Grammar.importNode)
  else if n.type = Grammar.importNode then importPart src n
  else if n.type = Grammar.declarations then
    partsOfAll (declPart src) (n.namedChildren.filter fun c => !c.isComment)
  else declPart src n

/-- The header of a part. -/
def Part.header? : Part → Option (Option ModuleName)
  | .header name => some name
  | _ => none

/-- The import of a part. -/
def Part.import? : Part → Option Import
  | .importing i => some i
  | _ => none

/-- The declaration of a part. -/
def Part.decl? : Part → Option Decl
  | .decl d => some d
  | _ => none

/-- The module of some parts; of several headers the last counts. -/
def moduleOf (parts : List Part) : Module :=
  { head := (parts.filterMap Part.header?).getLast?.getD none
    imports := parts.filterMap Part.import?
    decls := parts.filterMap Part.decl? }

/-- The warnings about the root itself. -/
def rootWarnings (root : Node) : List Warning :=
  if root.type = Grammar.root then [] else [.unexpectedRoot root.type]

/-- The module that a tree writes, and what the tree lacks. -/
def ofTree (src : Source) (root : Node) : Module × List Warning :=
  let parts := partsOfAll (partsOf src) root.namedChildren
  (moduleOf parts.1, rootWarnings root ++ parts.2)

end Modules
end Outline
end HaskellTags
