import HaskellTags.Files.Discovery
import HaskellTags.Run.Tagging
import HaskellTags.Settings.Basic
import HaskellTags.Tag.Line

/-!
# Tagging many files

Paths are expanded to files first: a directory stands for the source files
below it.  Then the files are tagged in order.  A file that has no tags is
counted; it ends the sweep unless the settings say to go on.
-/

namespace HaskellTags
namespace Run

/-- The counts of a sweep. -/
structure Stats where
  processed : Nat := 0
  failed : Nat := 0
  tags : Nat := 0
  parseErrors : Nat := 0
  deriving DecidableEq, Repr

namespace Stats

/-- The counts after a file with tags. -/
def add (s : Stats) (t : Tagged) : Stats :=
  { s with
    processed := s.processed + 1
    tags := s.tags + t.tags.length
    parseErrors := s.parseErrors + t.parseErrors }

/-- The counts after a file without tags. -/
def addFailure (s : Stats) : Stats :=
  { s with failed := s.failed + 1 }

/-- The text of the counts. -/
def text (s : Stats) : String :=
  "TaggingStats(processed=" ++ toString s.processed ++ ", failed=" ++ toString s.failed ++
    ", tags=" ++ toString s.tags ++ ", parse_errors=" ++ toString s.parseErrors ++ ")"

end Stats

section Expanding

/-- The source files below a directory. -/
def discover (w : World) (search : Files.Search) (directory : String) :
    Logged Failure (List String) := do
  Logged.report .info .sweep ("Discovering Haskell files in " ++ directory)
  if Files.holdsNull directory then
    .fail (.unreadable .nullInPath)
  else
    let found := search.found w.files directory
    Logged.report .info .sweep ("Found " ++ toString found.length ++ " Haskell files")
    return found

/-- The search that settings describe. -/
def searchOf (settings : Settings) : Files.Search :=
  ⟨settings.extensions, settings.excludedDirs⟩

/-- The files that paths stand for. -/
def expand (w : World) (settings : Settings) : List String → Logged Failure (List String)
  | [] => return []
  | path :: rest => do
    let files ←
      if Files.isDirectory w.files path then discover w (searchOf settings) path
      else pure [path]
    let others ← expand w settings rest
    return files ++ others

end Expanding

section Sweeping

/-- What a sweep has come to. -/
structure Sweep where
  /-- The files with tags, in order. -/
  tagged : List (String × List Tag)
  stats : Stats
  records : List Log.Record
  outcome : Except Failure Unit

/-- The record about a file without tags; a place that the source does not
have is nothing that a sweep expects. -/
def failureRecord (path : String) (failure : Failure) : Option Log.Record :=
  let record := fun words => some (Log.Record.of .error .sweep (words ++ failure.message))
  match failure with
  | .missing _ => record "File not found: "
  | .notSource _ _ => record "Invalid file: "
  | .unreadable .nullInPath => record "Invalid file: "
  | .unreadable e =>
    if e.isMissing then record "File not found: " else record ("Error reading " ++ path ++ ": ")
  | .untagged (.unsupported _ _) => record ("Cannot tag " ++ path ++ ": ")
  | .untagged .lineOutOfRange | .untagged .lineTooLarge => none

/-- A sweep after some records. -/
def Sweep.after (records : List Log.Record) (s : Sweep) : Sweep :=
  { s with records := records ++ s.records }

/-- A sweep that goes over the files, from some counts on, as long as the limit
is not reached. -/
def sweepFiles (w : World) (settings : Settings) :
    (limit : Option Nat) → Stats → List String → Sweep
  | _, stats, [] =>
    ⟨[], stats, [.of .info .sweep ("Tagging complete: " ++ stats.text)], .ok ()⟩
  | limit, stats, path :: rest =>
    let result := tagFile w settings.extensions path
    match result.outcome with
    | .ok t =>
      let here := (path, t.tags)
      let stats := stats.add t
      let limit := limit.map (· - 1)
      if limit = some 0 then ⟨[here], stats, result.notes, .ok ()⟩
      else
        let others := sweepFiles w settings limit stats rest
        { others.after result.notes with tagged := here :: others.tagged }
    | .error failure =>
      match failureRecord path failure with
      | none => ⟨[], stats, result.notes, .error failure⟩
      | some record =>
        let stats := stats.addFailure
        let records := result.notes ++ [record]
        if settings.continueOnError then
          (sweepFiles w settings limit stats rest).after records
        else ⟨[], stats, records, .error failure⟩

/-- A sweep over paths, from some counts on; with a limit it stops after so many
files with tags. -/
def sweep (w : World) (settings : Settings) (limit : Option Nat) (stats : Stats)
    (paths : List String) : Sweep :=
  if limit = some 0 then ⟨[], stats, [], .ok ()⟩
  else
    let expanded := expand w settings paths
    match expanded.outcome with
    | .error failure => ⟨[], stats, expanded.notes, .error failure⟩
    | .ok files => (sweepFiles w settings limit stats files).after expanded.notes

/-- The tags of a sweep. -/
def Sweep.tags (s : Sweep) : List Tag :=
  s.tagged.flatMap Prod.snd

/-- The tags of all files below some paths, and the counts. -/
def tagPaths (w : World) (settings : Settings) (paths : List String) :
    Logged Failure (List Tag × Stats) :=
  let s := sweep w settings none {} paths
  ⟨s.outcome.map fun _ => (s.tags, s.stats), s.records⟩

/-- The lines of the tags of all files below some paths, file by file, and how
the sweep ended; the lines of the files before a failure stay. -/
def tagLines (w : World) (settings : Settings) (paths : List String) :
    List String × Logged Failure Unit :=
  let s := sweep w settings none {} paths
  (s.tagged.flatMap fun file => file.2.map Tag.render, ⟨s.outcome, s.records⟩)

end Sweeping

end Run
end HaskellTags
