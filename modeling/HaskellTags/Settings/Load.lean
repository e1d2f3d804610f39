import HaskellTags.Files.Basic
import HaskellTags.Json.Reader
import HaskellTags.Settings.Environment
import HaskellTags.Settings.OfEntries
import HaskellTags.Yaml.Fault

/-!
# Settings from a file

A settings file is JSON if its name says so, and YAML otherwise; how YAML is read is
left open here, as the grammar of sources is.  A strict
reading refuses a file that is missing, cannot be parsed or holds something
else than settings; a lenient one warns and goes on with what it has.  What the
file system and the decoding refuse ends both.
-/

namespace HaskellTags
namespace Settings

/-- What a strict reading refuses. -/
inductive Refusal
  | missing (path : String)
  | unparsable (path : String) (detail : String)
  | notMapping (type : String)
  | invalid (problem : Problem)
  deriving DecidableEq, Repr

/-- The wording of a refusal. -/
def Refusal.message : Refusal → String
  | .missing path => "Config file not found: " ++ path
  | .unparsable path detail => "Failed to parse config at " ++ path ++ ": " ++ detail
  | .notMapping type => "Unexpected config payload type: " ++ type
  | .invalid problem => problem.message

/-- Why there are no settings. -/
inductive LoadFault
  | refused (refusal : Refusal)
  | unreadable (error : Files.Error)
  | undecodable (error : Text.DecodeError)
  | scalar (fault : Yaml.ScalarFault)
  | excess (excess : Json.Excess)
  /-- A warning would hold a number with too many digits. -/
  | limit (fault : Decimal.LimitFault)

/-- The wording of a fault. -/
def LoadFault.message : LoadFault → String
  | .refused refusal => refusal.message
  | .unreadable error => error.message
  | .undecodable error => error.message
  | .scalar fault => fault.message
  | .excess e => e.message
  | .limit fault => fault.message

section Parsing

/-- Whether the name of a path says that the file is JSON. -/
def isJson (path : String) : Bool :=
  (Files.Path.suffix (Files.Path.lastName path)).toLower = ".json"

/-- Why a text has no value. -/
inductive ParseFault
  | malformed (detail : String)
  | scalar (fault : Yaml.ScalarFault)
  | excess (excess : Json.Excess)

/-- The value that a settings file holds. -/
def parse (yaml : Yaml.Reader) (path text : String) : Except ParseFault Value :=
  if isJson path then
    (Json.parse text).mapError fun fault =>
      match fault.problem with
      | .excess excess => .excess excess
      | _ => .malformed (fault.message text.toList)
  else
    (yaml text).mapError fun
      | .malformed => .malformed Yaml.malformedMessage
      | .scalar fault => .scalar fault

/-- The text of a settings file. -/
def decodeText (octets : Text.Octets) : Except Text.DecodeError String := do
  return String.ofList (Text.unifyEndings (← Text.decodeStrict octets).toList)

end Parsing

section Reading

/-- No entries: a failure of a strict reading, a warning of a lenient one. -/
def withoutEntries (strict : Bool) (refusal : Refusal) : Logged LoadFault Entries :=
  if strict then .fail (.refused refusal)
  else do
    Logged.report .warning .settings (refusal.message ++ "; continuing with defaults")
    return []

/-- The entries of a value. -/
def entriesOf (strict : Bool) : Value → Logged LoadFault Entries
  | .map entries => return entries
  | .scalar .null => return []
  | v => do
    (complain strict Refusal.message (.notMapping v.typeName)).mapFault .refused
    return []

/-- The entries of the settings file at a path. -/
def entriesAt (yaml : Yaml.Reader) (root : Files.Entry) (strict : Bool) (path : String) :
    Logged LoadFault Entries :=
  match Files.read root (Files.Path.normal path) with
  | .error e =>
    if e.isMissing then withoutEntries strict (.missing path) else .fail (.unreadable e)
  | .ok octets =>
    match decodeText octets with
    | .error e => .fail (.undecodable e)
    | .ok text =>
      match parse yaml path text with
      | .error (.malformed detail) => withoutEntries strict (.unparsable path detail)
      | .error (.scalar fault) => .fail (.scalar fault)
      | .error (.excess excess) => .fail (.excess excess)
      | .ok v => entriesOf strict v

/-- What the settings file at a path chooses. -/
def choicesAt (yaml : Yaml.Reader) (root : Files.Entry) (strict : Bool) (path : String) :
    Logged LoadFault Choices := do
  let entries ← entriesAt yaml root strict path
  (ofEntries strict entries).mapFault fun
    | .problem problem => .refused (.invalid problem)
    | .limit fault => .limit fault

/-- The settings by default, then by a file, then by the environment. -/
def load (yaml : Yaml.Reader) (root : Files.Entry) (env : Environment) (strict : Bool)
    (path : Option String) : Logged LoadFault Settings := do
  let chosen ← match path with
    | none => pure {}
    | some p => choicesAt yaml root strict p
  return (({} : Settings).choose chosen).choose env.choices

end Reading

end Settings
end HaskellTags
