import HaskellTags.Journal

/-!
# Log records

A record has a level, the component that reports, the source file it is about
if there is one, and a message.  A computation that reports leaves records as
notes; inside a file's scope every record without a file gets that file.
-/

namespace HaskellTags
namespace Log

/-- The levels of the program's own records. -/
inductive Level
  | debug
  | info
  | warning
  | error
  deriving DecidableEq, Repr

namespace Level

/-- The rank of a level among all levels. -/
def rank : Level → Int
  | .debug => 10
  | .info => 20
  | .warning => 30
  | .error => 40

/-- The name of a level. -/
def name : Level → String
  | .debug => "DEBUG"
  | .info => "INFO"
  | .warning => "WARNING"
  | .error => "ERROR"

/-- All levels, the lowest first. -/
def all : List Level := [.debug, .info, .warning, .error]

/-- The level of a name. -/
def ofName? (name : String) : Option Level :=
  all.find? fun level => level.name = name

end Level

/-- The components that report. -/
inductive Component
  | outline
  | tags
  | sweep
  | writer
  | settings
  | run
  deriving DecidableEq, Repr

/-- The name under which a component reports. -/
def Component.name : Component → String
  | .outline => "tagging.parser"
  | .tags => "tagging.traversal"
  | .sweep => "tagging.extractor"
  | .writer => "tagging.writer"
  | .settings => "core.tags_config"
  | .run => "run_tags"

/-- A log record. -/
structure Record where
  level : Level
  component : Component
  /-- The source file it is about. -/
  file : Option String
  message : String
  deriving DecidableEq, Repr

/-- A record about no file. -/
def Record.of (level : Level) (component : Component) (message : String) : Record :=
  ⟨level, component, none, message⟩

/-- A record in a file's scope; an inner scope comes first. -/
def Record.within (path : String) (r : Record) : Record :=
  { r with file := some (r.file.getD path) }

/-- What stands for the file of a record about none. -/
def noFile : String := "-"

/-- The file shown with a record. -/
def Record.shownFile (r : Record) : String :=
  r.file.getD noFile

/-- The records at a level or above. -/
def atLeast (level : Level) (records : List Record) : List Record :=
  records.filter fun r => level.rank ≤ r.level.rank

end Log

/-- A computation that reports. -/
abbrev Logged := Journal Log.Record

namespace Logged

variable {ε α : Type}

/-- One record. -/
def report (level : Log.Level) (component : Log.Component) (message : String) : Logged ε Unit :=
  Journal.note (Log.Record.of level component message)

/-- A computation in a file's scope. -/
def inFile (path : String) (x : Logged ε α) : Logged ε α :=
  x.mapNotes fun records => records.map (Log.Record.within path)

end Logged
end HaskellTags
