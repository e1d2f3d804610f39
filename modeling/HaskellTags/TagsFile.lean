import HaskellTags.Json.Writer
import HaskellTags.Tag.Line
import HaskellTags.Text.Utf8

/-!
# Tags files

The lines of a tags file: a header of pseudo-tags, then one line for each tag,
sorted by name, file and line or in the order given.  The other format writes
one JSON object for each tag, always in the order given.
-/

namespace HaskellTags
namespace TagsFile

open Text

/-- The name that a tags file gives for its program. -/
def programName : String := "hstags"

/-- The pseudo-tags at the head of a tags file. -/
def header (sorted : Bool) : List String :=
  ["!_TAG_FILE_FORMAT\t2\t//",
    "!_TAG_FILE_SORTED\t" ++ (if sorted then "1" else "0") ++ "\t//",
    "!_TAG_PROGRAM_NAME\t" ++ programName ++ "\t//"]

/-- Octets in order, a part before the whole. -/
def octetsAtMost : Octets → Octets → Bool
  | [], _ => true
  | _ :: _, [] => false
  | a :: as, b :: bs => a < b || (a == b && octetsAtMost as bs)

/-- The order of a sorted file: by the octets of the name, then those of the
file, then the line. -/
def atMost (a b : Tag) : Bool :=
  let nameA := octetsOf a.name
  let nameB := octetsOf b.name
  if nameA ≠ nameB then octetsAtMost nameA nameB
  else
    let fileA := octetsOf a.file
    let fileB := octetsOf b.file
    if fileA ≠ fileB then octetsAtMost fileA fileB
    else a.line ≤ b.line

/-- Tags in the order of a sorted file; equal ones keep their order. -/
def sort (tags : List Tag) : List Tag :=
  tags.mergeSort atMost

/-- The lines of a tags file, without their ends. -/
def lines (sorted withHeader : Bool) (tags : List Tag) : List String :=
  (if withHeader then header sorted else []) ++
    (if sorted then sort tags else tags).map Tag.render

/-- The lines of a tags file, if the line numbers of all tags can be written. -/
def format (sorted withHeader : Bool) (tags : List Tag) :
    Except Decimal.LimitFault (List String) :=
  if tags.all fun t => Decimal.isWritable t.line then .ok (lines sorted withHeader tags)
  else .error .writing

/-- The lines of the JSON format, without their ends. -/
def jsonLines (tags : List Tag) : List String :=
  tags.map fun t => Json.render t.toValue

/-- The lines of the JSON format as they are made one after another, within a limit on
digits. -/
def jsonRecords (limit : Option Nat) (tags : List Tag) :
    List (Except Decimal.LimitFault String) :=
  tags.map fun t => Json.writeWithin limit t.toValue

/-- Lines as text, each with its end. -/
def text (lines : List String) : String :=
  String.join (lines.map fun line => line ++ "\n")

end TagsFile
end HaskellTags
