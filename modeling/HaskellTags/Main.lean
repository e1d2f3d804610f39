import Std.Time
import HaskellTags.Log.Session
import HaskellTags.Run.Program
import HaskellTags.Tree.OfValue

/-!
# The program on the command line

The files that the command line names are loaded, the run is computed from them,
and what it changed is written back.  The
concrete tree of a source file is read from the file beside it that has the
same name and the extension `.tree`; it is the nested list of its nodes.
-/

namespace HaskellTags
namespace Main

/-- The item at a path where there is one. -/
partial def loadFound (path : String) : IO Files.Item := do
  let found ← IO.FS.realPath path
  if ← found.isDir then
    let listing ← (← found.readDir).toList.mapM fun e => do
      return (e.fileName, ← loadFound (Files.Path.join path e.fileName))
    return .directory listing
  else return .file (← IO.FS.readBinFile path).toList

/-- The item at a path, if there is one that can be read. -/
def loadItem (path : String) : IO (Option Files.Item) := do
  try
    return some (← loadFound path)
  catch _ => return none

/-- The extension of the files that hold trees. -/
def treeExtension : String := ".tree"

/-- The parse that a tree file holds. -/
def parseOf? (content : Text.Octets) : Option Parse := do
  let value ← (Json.parse (Text.decode content)).toOption
  let root ← Tree.Node.ofValue? value
  return ⟨root, 0 < root.errorCount, none⟩

/-- A world that knows the trees of its source files. -/
def learnTrees (w : Run.World) : Run.World :=
  (Files.below [] w.files.root).foldl (fun w (names, item) =>
    let path := names.foldl Files.Path.join "/"
    match item, Files.entryAt w.files (path ++ treeExtension) with
    | .file source, some (.file content) =>
      match parseOf? content with
      | some parse => w.learn source parse
      | none => w
    | _, _ => w) w

/-- A world with the item at a path. -/
def loadPath (w : Run.World) (path : String) : IO Run.World := do
  if Files.holdsNull path then return w
  match ← loadItem path with
  | some item => return w.put path item
  | none => return w

/-- The text of an argument. -/
def textOf : CommandLine.Argument → List String
  | .text s => [s]
  | .struck => []

/-- The paths that a command line names. -/
def namedPaths (a : CommandLine.Arguments) : List String :=
  a.paths ++ a.paths.map (· ++ treeExtension) ++ a.config.toList.flatMap textOf ++ textOf a.output

/-- The world that a command line names. -/
def loadWorld (texts : List String) : IO Run.World := do
  let here ← IO.currentDir
  let w := Run.World.empty here.toString
  match CommandLine.parse texts with
  | .error _ => return w
  | .ok a => return learnTrees (← (namedPaths a).foldlM loadPath w)

/-- The variables that settings are read from. -/
def loadEnvironment : IO Environment := do
  let names :=
    [Environment.strictVariable, Environment.sortVariable, Environment.extensionsVariable]
  names.foldlM (fun env name => return env.set name (← IO.getEnv name)) []

/-- A random id for a run. -/
def freshRunId : IO String := do
  let digits ← (List.range 32).mapM fun _ => IO.rand 0 15
  return String.ofList (digits.map Nat.digitChar)

/-- Writes back an item that a run changed. -/
def writeBack (path : String) (content : Option Text.Octets) : IO Unit :=
  match content with
  | some octets => IO.FS.writeBinFile path (ByteArray.mk octets.toArray)
  | none => IO.FS.createDirAll path

/-- A record as a line of the log. -/
def logLine (runId time : String) (r : Log.Record) : String :=
  let session := ((Log.Session.start 0).configure r.level.rank).setRunId (some runId) runId
  let session := match r.file with
    | some path => session.enter path
    | none => session
  String.join (session.written time ⟨r.component.name, r.level.rank, r.message⟩)

end Main
end HaskellTags

open HaskellTags in
/-- Runs the program. -/
def main (texts : List String) : IO UInt32 := do
  let world ← Main.loadWorld texts
  let runId ← Main.freshRunId
  let ending := Run.run world (← Main.loadEnvironment) runId texts
  let time := (← Std.Time.PlainDateTime.now).format "uuuu-MM-dd HH:mm:ss,SSS"
  for r in ending.records do
    IO.eprint (Main.logLine runId time r)
  IO.eprint ending.complaint
  IO.print ending.printed
  for (path, content) in Files.changes world.files.top ending.files.top do
    Main.writeBack ("/" ++ path) content
  match ending.outcome with
  | .ok code => return UInt32.ofNat code
  | .error e =>
    IO.eprintln e.message
    return 1
