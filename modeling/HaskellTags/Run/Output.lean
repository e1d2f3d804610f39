import HaskellTags.Files.Writing
import HaskellTags.Log.Record
import HaskellTags.TagsFile

/-!
# Writing lines

Lines go to a file or, for the name `-`, to the standard output.  Lines may be made
while they are written; where one cannot be made, those before it have been written.
-/

namespace HaskellTags
namespace Run

/-- Why lines are not written, or not all of them. -/
inductive OutputFault
  | file (error : Files.Error)
  /-- A line would hold a number with too many digits. -/
  | limit (fault : Decimal.LimitFault)

/-- The wording of a fault. -/
def OutputFault.message : OutputFault → String
  | .file error => error.message
  | .limit fault => fault.message

/-- What the writing of lines has come to. -/
structure Output where
  files : Files.Entry
  /-- What was printed. -/
  printed : String
  /-- The number of lines. -/
  outcome : Except OutputFault Nat
  records : List Log.Record

/-- The name of the standard output. -/
def standardOutput : String := "-"

/-- Writes lines to a path, or prints them. -/
def writeLines (workingDirectory : String) (files : Files.Entry) (path : String)
    (lines : List String) : Output :=
  let text := TagsFile.text lines
  if path = standardOutput then ⟨files, text, .ok lines.length, []⟩
  else
    let changed := Files.write workingDirectory files path (Text.octetsOf text)
    match changed.outcome with
    | .error e => ⟨changed.files, "", .error (.file e), []⟩
    | .ok () =>
      let record := Log.Record.of .info .writer
        ("Wrote " ++ toString lines.length ++ " lines to " ++ path)
      ⟨changed.files, "", .ok lines.length, [record]⟩

/-- The lines that are made before a fault, and the fault. -/
def upToFault {ε α : Type} : List (Except ε α) → List α × Option ε
  | [] => ([], none)
  | .ok a :: rest => (a :: (upToFault rest).1, (upToFault rest).2)
  | .error e :: _ => ([], some e)

/-- The writing is cut short by a line that cannot be made. -/
def Output.cutShort (out : Output) (fault : Decimal.LimitFault) : Output :=
  match out.outcome with
  | .ok _ => { out with outcome := .error (.limit fault), records := [] }
  | .error _ => out

/-- Writes lines while they are made. -/
def writeMade (workingDirectory : String) (files : Files.Entry) (path : String)
    (lines : List (Except Decimal.LimitFault String)) : Output :=
  let out := writeLines workingDirectory files path (upToFault lines).1
  match (upToFault lines).2 with
  | some fault => out.cutShort fault
  | none => out

/-- Writes tags in the JSON format, within a limit on digits. -/
def writeJson (limit : Option Nat) (workingDirectory : String) (files : Files.Entry)
    (path : String) (tags : List Tag) : Output :=
  writeMade workingDirectory files path (TagsFile.jsonRecords limit tags)

end Run
end HaskellTags
