import HaskellTags.Outline.OfTree
import HaskellTags.Value.Display

/-!
# Parses

What a grammar gives for the octets of a source, the records about it, and the
outline that follows.
-/

namespace HaskellTags

open Text HaskellTags.Tree

/-- What a grammar gives for a source. -/
structure Parse where
  root : Node
  /-- The tree holds an error somewhere. -/
  hasError : Bool
  /-- The name of a form of source that has no outline. -/
  form : Option String

/-- A parser: what a grammar gives for every source. -/
abbrev Parser := Octets → Parse

/-- What is handed to a parser: a source, or by mistake another value. -/
inductive Handed
  | source (octets : Octets)
  | value (v : Value)

/-- A parser was handed a value that is no source. -/
structure NoSource where
  value : Value

/-- The wording about a value that is no source. -/
def NoSource.message (f : NoSource) : String :=
  "Source must be bytes, got " ++ f.value.typeName

/-- What a parser gives for what it is handed. -/
def Parser.parse (parser : Parser) : Handed → Except NoSource Parse
  | .source octets => .ok (parser octets)
  | .value v => .error ⟨v⟩

namespace Parse

/-- The parse of a source of which nothing is known: a root without children. -/
def bare (source : Octets) : Parse :=
  { root := .node ⟨Tree.Grammar.root, true, false, 0, source.length, ⟨0, 0⟩, ⟨0, 0⟩, none⟩ []
    hasError := false
    form := none }

/-- The record about a grammar made ready. -/
def readyRecord : Log.Record :=
  .of .debug .outline "Created tree-sitter Haskell parser"

/-- The records about the parse of a source of a given size. -/
def records (p : Parse) (size : Nat) : List Log.Record :=
  [readyRecord] ++
    (if p.hasError then [.of .warning .outline "Parsed tree contains syntax errors"] else []) ++
    [.of .debug .outline ("Parsed " ++ toString size ++ " bytes of Haskell code")]

/-- The outline of a parsed source, and what its tree lacks. -/
def outline (p : Parse) (src : Outline.Source) : Outline × List Outline.Warning :=
  match p.form with
  | some form => (.unsupported form (some src.file), [])
  | none => (.haskell (Outline.ofTree src p.root).1, (Outline.ofTree src p.root).2)

/-- The records about the outline of a parsed source. -/
def outlineRecords (p : Parse) (src : Outline.Source) : List Log.Record :=
  (p.outline src).2.map (Outline.Warning.record src.file)

end Parse
end HaskellTags
