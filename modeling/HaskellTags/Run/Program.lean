import HaskellTags.CommandLine.Usage
import HaskellTags.Run.Output
import HaskellTags.Run.Sweep
import HaskellTags.Settings.Load

/-!
# The program

A run reads its command line, resolves the settings, tags the paths and writes
the output.  What goes wrong on the way is reported and gives the exit code;
some faults are not expected and escape.
-/

namespace HaskellTags
namespace Run

open CommandLine

/-- A fault that a run does not expect. -/
inductive Escape
  | settings (fault : Settings.LoadFault)
  | output (fault : OutputFault)
  /-- A path of which nothing is left. -/
  | struckPath
  /-- A log level of which nothing is left. -/
  | struckLevel

/-- The wording of an unexpected fault. -/
def Escape.message : Escape → String
  | .settings fault => fault.message
  | .output fault => fault.message
  | .struckPath => "expected str, bytes or os.PathLike object, not list"
  | .struckLevel => "attribute name must be string, not 'list'"

section Resolving

/-- Why there are no settings for a run. -/
inductive SettingsFault
  | load (fault : Settings.LoadFault)
  | struckPath

/-- What the command line chooses. -/
def commandChoices (a : Arguments) (strict : Bool) : Settings.Choices where
  format := a.format
  sortOutput := if a.noSort then some false else none
  emitHeader := if a.noHeader then some false else none
  continueOnError := if strict then some false else none

/-- Whether the settings of a run are read strictly. -/
def isStrict (env : Environment) (a : Arguments) : Bool :=
  a.strict || env.isStrict

/-- The settings of a run: by default, by file, by the environment and by the
command line. -/
def resolveSettings (yaml : Yaml.Reader) (files : Files.Entry) (env : Environment)
    (a : Arguments) : Logged SettingsFault Settings := do
  let strict := isStrict env a
  let path ← match a.config with
    | none => pure none
    | some (.text path) => pure (some path)
    | some .struck => .fail .struckPath
  let settings ← (Settings.load yaml files env strict path).mapFault .load
  return settings.choose (commandChoices a strict)

end Resolving

/-- What a run has come to. -/
structure Ending where
  files : Files.Entry
  /-- What was printed to the standard output. -/
  printed : String
  /-- What was printed to the error stream. -/
  complaint : String
  /-- The exit code. -/
  outcome : Except Escape Nat
  records : List Log.Record

namespace Ending

/-- A run that ends with a report. -/
def reported (files : Files.Entry) (message : String) : Ending :=
  ⟨files, "", "", .ok 1, [.of .error .run message]⟩

/-- A run that ends with an unexpected fault. -/
def escaped (files : Files.Entry) (e : Escape) : Ending :=
  ⟨files, "", "", .error e, []⟩

/-- A run after some records. -/
def after (records : List Log.Record) (e : Ending) : Ending :=
  { e with records := records ++ e.records }

end Ending

/-- Writes tags in the format that settings ask for. -/
def writeFormatted (w : World) (path : String) (settings : Settings) (tags : List Tag) :
    Output :=
  match settings.format with
  | .jsonl => writeJson (some Decimal.digitLimit) w.workingDirectory w.files path tags
  | _ =>
    match TagsFile.format settings.sortOutput settings.emitHeader tags with
    | .error fault => ⟨w.files, "", .error (.limit fault), []⟩
    | .ok lines => writeLines w.workingDirectory w.files path lines

/-- Writes the tags of a run. -/
def writeTags (w : World) (a : Arguments) (settings : Settings) (tags : List Tag)
    (stats : Stats) : Ending :=
  match a.output with
  | .struck => .escaped w.files .struckPath
  | .text path =>
    let out := writeFormatted w path settings tags
    match out.outcome with
    | .error e => ⟨out.files, out.printed, "", .error (.output e), out.records⟩
    | .ok _ =>
      let final := Log.Record.of .info .run ("Final stats: " ++ stats.text)
      ⟨out.files, out.printed, "", .ok 0, out.records ++ [final]⟩

/-- The report about a failure to tag. -/
def failureReport (failure : Failure) : String :=
  match failure with
  | .missing _ | .notSource _ _ | .unreadable _ => "File error: " ++ failure.message
  | .untagged (.unsupported _ _) => "Cannot tag module: " ++ failure.message
  | .untagged .lineOutOfRange | .untagged .lineTooLarge => "Tagging failed: " ++ failure.message

/-- Tags the paths with some settings and writes the output. -/
def runWith (w : World) (a : Arguments) (settings : Settings) : Ending :=
  let result := tagPaths w settings a.paths
  let ending : Ending := match result.outcome with
    | .error failure => .reported w.files (failureReport failure)
    | .ok (tags, stats) =>
      if stats.processed = 0 then
        .reported w.files ("No Haskell modules could be tagged: " ++ stats.text)
      else writeTags w a settings tags stats
  ending.after result.notes

/-- A run with a command line that was read. -/
def runArguments (w : World) (env : Environment) (a : Arguments) : Ending :=
  let resolved := resolveSettings w.yaml w.files env a
  let ending : Ending := match resolved.outcome with
    | .error (.load (.refused refusal)) =>
      .reported w.files ("Invalid configuration: " ++ refusal.message)
    | .error (.load fault) => .escaped w.files (.settings fault)
    | .error .struckPath => .escaped w.files .struckPath
    | .ok settings => runWith w a settings
  ending.after resolved.notes

/-- A run with a command line and an id: what is logged below the level is left
out. -/
def run (w : World) (env : Environment) (runId : String) (texts : List String) : Ending :=
  match parse texts with
  | .error stop =>
    let exit := stop.exit
    ⟨w.files, exit.output, exit.errors, .ok exit.code, []⟩
  | .ok a =>
    match a.logLevel with
    | none => .escaped w.files .struckLevel
    | some level =>
      let start := Log.Record.of .info .run ("Starting tag run " ++ runId)
      let ending := (runArguments w env a).after [start]
      { ending with records := Log.atLeast level ending.records }

end Run
end HaskellTags
