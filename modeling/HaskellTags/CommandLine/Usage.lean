import HaskellTags.CommandLine.Arguments

/-!
# Help and usage

What is printed when a command line asks for help or is refused, with the exit code.
-/

namespace HaskellTags
namespace CommandLine

/-- The name of the program. -/
def programName : String := "run_tags.py"

/-- The usage. -/
def usage : String :=
  "usage: run_tags.py [-h] [-o OUTPUT] [--format \x7bctags,jsonl\x7d] [--no-sort]\n" ++
  "                   [--no-header] [--config CONFIG] [--strict]\n" ++
  "                   [--log-level \x7bDEBUG,INFO,WARNING,ERROR\x7d]\n" ++
  "                   paths [paths ...]\n"

/-- What the help says of the arguments. -/
def optionsHelp : String :=
  "positional arguments:\n" ++
  "  paths                 Haskell files or directories to tag.\n" ++
  "\n" ++
  "options:\n" ++
  "  -h, --help            show this help message and exit\n" ++
  "  -o OUTPUT, --output OUTPUT\n" ++
  "                        Output file, or '-' for stdout. Default: tags\n" ++
  "  --format \x7bctags,jsonl\x7d\n" ++
  "                        Output format. Default: ctags\n" ++
  "  --no-sort             Keep source order instead of sorting by name.\n" ++
  "  --no-header           Omit the !_TAG_ pseudo-tag lines.\n" ++
  "  --config CONFIG       YAML or JSON configuration file.\n" ++
  "  --strict              Fail on config errors and on the first module that\n" ++
  "                        cannot be tagged.\n" ++
  "  --log-level \x7bDEBUG,INFO,WARNING,ERROR\x7d\n" ++
  "                        Log level for stderr diagnostics. Default: WARNING\n"

/-- The examples at the end of the help. -/
def examplesHelp : String :=
  "Examples:\n" ++
  "  python run_tags.py src/ -o tags\n" ++
  "  python run_tags.py src/ --format jsonl -o out/tags.jsonl\n"

/-- The help. -/
def helpText : String :=
  usage ++ "\nHaskell ctags generator\n\n" ++ optionsHelp ++ "\n" ++ examplesHelp

/-- What is printed and with which code the program ends. -/
structure Exit where
  code : Nat
  output : String
  errors : String
  deriving DecidableEq, Repr

/-- How the program ends where the reading of its command line stops. -/
def Stop.exit : Stop → Exit
  | .help => ⟨0, helpText, ""⟩
  | .mistake m => ⟨2, "", usage ++ programName ++ ": error: " ++ m.message ++ "\n"⟩

end CommandLine
end HaskellTags
