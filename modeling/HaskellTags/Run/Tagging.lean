import HaskellTags.Run.World
import HaskellTags.Tag.OfOutline
import HaskellTags.Text.Blank
import HaskellTags.Text.Lines
import HaskellTags.Tree.Search
import HaskellTags.Value.Display

/-!
# Tagging one file

A source file is read, parsed, outlined and tagged.  All records on the way are
in the scope of the file.
-/

namespace HaskellTags
namespace Run

open Text

/-- Why a file has no tags. -/
inductive Failure
  | missing (path : String)
  /-- The extension is none of those of source files. -/
  | notSource (path : String) (extensions : List String)
  | unreadable (error : Files.Error)
  | untagged (failure : Tag.Failure)
  deriving DecidableEq, Repr

/-- The wording of a failure. -/
def Failure.message : Failure → String
  | .missing path => "File not found: " ++ path
  | .notSource path extensions =>
    "File " ++ path ++ " is not a Haskell source file. Expected one of: " ++
      describedTexts (extensions.mergeSort fun a b => a ≤ b)
  | .unreadable error => error.message
  | .untagged failure => failure.message

/-- A source file that was parsed. -/
structure Parsed where
  octets : Octets
  parse : Parse

/-- The record about a source file that cannot be read, if there is one. -/
def unreadRecord (path : String) : Files.Error → List Log.Record
  | .nullInPath => []
  | e =>
    if e.isMissing then [.of .error .outline ("File not found: " ++ path)]
    else [.of .error .outline ("Error reading file " ++ path ++ ": " ++ e.message)]

/-- Reads and parses a source file. -/
def parseFile (w : World) (path : String) : Logged Failure Parsed :=
  match w.readSource path with
  | .error e => do
    Journal.noteAll (unreadRecord path e)
    .fail (.unreadable e)
  | .ok octets => do
    let parse := w.parser octets
    Journal.noteAll (parse.records octets.length)
    Logged.report .info .outline ("Successfully parsed file: " ++ path)
    return ⟨octets, parse⟩

/-- A file's tags and the number of errors in its tree. -/
structure Tagged where
  tags : List Tag
  parseErrors : Nat

/-- The tags of an outline, with the records on the way. -/
def tagsOf (lines : List String) (outline : Outline) : Logged Failure (List Tag) :=
  let result := Tag.ofOutline oneLine lines outline
  ⟨result.outcome.mapError Failure.untagged, result.notes.filterMap Tag.Note.record?⟩

/-- Tags a source file that is there. -/
def tagSource (w : World) (path : String) : Logged Failure Tagged := do
  let parsed ← parseFile w path
  let errors := parsed.parse.root.errorCount
  if parsed.parse.hasError then
    Logged.report .warning .sweep
      ("File " ++ path ++ " contains syntax errors (" ++ toString errors ++ " error nodes)")
  let src : Outline.Source := ⟨path, parsed.octets⟩
  Journal.noteAll (parsed.parse.outlineRecords src)
  let tags ← tagsOf (lines (decode parsed.octets)) (parsed.parse.outline src).1
  Logged.report .info .sweep ("Created " ++ toString tags.length ++ " tags from " ++ path)
  return ⟨tags, errors⟩

/-- Tags a file with one of some extensions. -/
def tagFile (w : World) (extensions : List String) (path : String) : Logged Failure Tagged :=
  if !Files.isFile w.files path then .fail (.missing path)
  else if !extensions.contains (Files.Path.extension path) then
    .fail (.notSource path extensions)
  else (tagSource w path).inFile path

/-- Tags one file alone; a failure is reported. -/
def tagOne (w : World) (extensions : List String) (path : String) : Logged Failure (List Tag) := do
  let tagged ← (tagFile w extensions path).noteFault fun e =>
    .of .error .sweep ("Error tagging " ++ path ++ ": " ++ e.message)
  return tagged.tags

end Run
end HaskellTags
