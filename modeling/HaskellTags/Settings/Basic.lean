/-!
# Settings

What a run of the program can be told: which files to tag, where not to look,
and how to write.  Settings come in layers, and each layer chooses some of them.
-/

namespace HaskellTags

/-- The formats of the output. -/
inductive Format
  | ctags
  | jsonl
  /-- A format asked for and not named; it is written like the first. -/
  | unnamed
  deriving DecidableEq, Repr

namespace Format

/-- The formats with a name. -/
def all : List Format := [.ctags, .jsonl]

/-- The name of a format. -/
def name : Format → String
  | .ctags => "ctags"
  | .jsonl => "jsonl"
  | .unnamed => ""

/-- The format of a name. -/
def ofName? (name : String) : Option Format :=
  all.find? fun format => format.name = name

end Format

/-- The settings of a run. -/
structure Settings where
  /-- The extensions of the files to tag. -/
  extensions : List String := [".hs"]
  /-- The names of the directories that are not entered. -/
  excludedDirs : List String :=
    [".stack-work", "__pycache__", "build", "dist", "dist-newstyle", "node_modules"]
  sortOutput : Bool := true
  emitHeader : Bool := true
  /-- A file that cannot be tagged does not end the run. -/
  continueOnError : Bool := true
  format : Format := .ctags
  deriving DecidableEq, Repr

namespace Settings

/-- The settings that one layer chooses. -/
structure Choices where
  extensions : Option (List String) := none
  excludedDirs : Option (List String) := none
  sortOutput : Option Bool := none
  emitHeader : Option Bool := none
  continueOnError : Option Bool := none
  format : Option Format := none
  deriving DecidableEq, Repr

/-- The choices of one layer, and of a lower one where it has none. -/
def Choices.over (higher lower : Choices) : Choices :=
  { extensions := higher.extensions.or lower.extensions
    excludedDirs := higher.excludedDirs.or lower.excludedDirs
    sortOutput := higher.sortOutput.or lower.sortOutput
    emitHeader := higher.emitHeader.or lower.emitHeader
    continueOnError := higher.continueOnError.or lower.continueOnError
    format := higher.format.or lower.format }

/-- Settings with the choices of a higher layer. -/
def choose (s : Settings) (c : Choices) : Settings :=
  { extensions := c.extensions.getD s.extensions
    excludedDirs := c.excludedDirs.getD s.excludedDirs
    sortOutput := c.sortOutput.getD s.sortOutput
    emitHeader := c.emitHeader.getD s.emitHeader
    continueOnError := c.continueOnError.getD s.continueOnError
    format := c.format.getD s.format }

end Settings
end HaskellTags
