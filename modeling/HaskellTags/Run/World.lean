import HaskellTags.Files.Writing
import HaskellTags.Outline.Parse
import HaskellTags.Yaml.Load

/-!
# The world of a run

What a run finds around it: the files, the paths that cannot be opened, the parser of
sources and the reader of YAML.
-/

namespace HaskellTags
namespace Run

open Text

/-- The world of a run. -/
structure World where
  /-- The working directory, as an entry of the whole file system. -/
  files : Files.Entry
  /-- The absolute path of the working directory. -/
  workingDirectory : String
  /-- The paths that are refused when a source is opened. -/
  refused : List (String × Files.Code)
  parser : Parser
  yaml : Yaml.Reader

namespace World

/-- A world without files, whose parser knows no source; YAML is read as the project reads
it. -/
def empty (workingDirectory : String) : World where
  files :=
    let names := Files.Path.names workingDirectory
    ⟨Files.Item.empty.put names .empty, names⟩
  workingDirectory
  refused := []
  parser := Parse.bare
  yaml := Yaml.load

/-- A world with an item at a path. -/
def put (w : World) (path : String) (item : Files.Item) : World :=
  { w with files.root := w.files.root.put (Files.namesOf w.files path) item }

/-- A world with a directory at a path; one that is there already stays. -/
def putDirectory (w : World) (path : String) : World :=
  if Files.isDirectory w.files path then w else w.put path .empty

/-- A world without the item at a path, which is refused no longer. -/
def remove (w : World) (path : String) : World :=
  { w with
    files.root := w.files.root.remove (Files.namesOf w.files path)
    refused := w.refused.filter fun r => r.1 ≠ path }

/-- A world in which a path is refused. -/
def refuse (w : World) (path : String) (code : Files.Code) : World :=
  { w with refused := (path, code) :: w.refused }

/-- A world whose parser knows a source. -/
def learn (w : World) (source : Octets) (parse : Parse) : World :=
  { w with parser := fun octets => if octets = source then parse else w.parser octets }

/-- The octets of a source file. -/
def readSource (w : World) (path : String) : Except Files.Error Octets :=
  match w.refused.lookup path with
  | some code => .error (.refused code path)
  | none => Files.read w.files path

end World
end Run
end HaskellTags
