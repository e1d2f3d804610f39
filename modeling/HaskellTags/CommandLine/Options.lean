import HaskellTags.Log.Record
import HaskellTags.Settings.Basic

/-!
# Options of the command line

The options of the program, how each may be written, and which values it takes.
-/

namespace HaskellTags
namespace CommandLine

/-- The options. -/
inductive Opt
  | help
  | output
  | format
  | noSort
  | noHeader
  | config
  | strict
  | logLevel
  deriving DecidableEq, Repr

namespace Opt

/-- All options, in the order of the help. -/
def all : List Opt :=
  [.help, .output, .format, .noSort, .noHeader, .config, .strict, .logLevel]

/-- How an option may be written in full. -/
def spellings : Opt → List String
  | .help => ["-h", "--help"]
  | .output => ["-o", "--output"]
  | .format => ["--format"]
  | .noSort => ["--no-sort"]
  | .noHeader => ["--no-header"]
  | .config => ["--config"]
  | .strict => ["--strict"]
  | .logLevel => ["--log-level"]

/-- Whether an option takes a value. -/
def takesValue : Opt → Bool
  | .output | .format | .config | .logLevel => true
  | .help | .noSort | .noHeader | .strict => false

/-- The values that an option accepts, if not all. -/
def values : Opt → Option (List String)
  | .format => some (Format.all.map Format.name)
  | .logLevel => some (Log.Level.all.map Log.Level.name)
  | _ => none

/-- The name of an option in messages. -/
def title (o : Opt) : String :=
  "/".intercalate o.spellings

/-- The spellings of all options. -/
def table : List (String × Opt) :=
  all.flatMap fun o => o.spellings.map fun spelling => (spelling, o)

/-- The option with a spelling. -/
def ofSpelling? (text : String) : Option Opt :=
  table.lookup text

end Opt
end CommandLine
end HaskellTags
