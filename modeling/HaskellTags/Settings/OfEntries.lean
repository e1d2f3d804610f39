import HaskellTags.Log.Record
import HaskellTags.Settings.Basic
import HaskellTags.Settings.Extension
import HaskellTags.Value.Display

/-!
# Settings from the entries of a file

Each entry chooses one setting or has a problem.  A strict reading stops at the
first problem; a lenient one warns and goes on.  Both stop at a problem that
cannot be put into words.
-/

namespace HaskellTags
namespace Settings

/-- The keys that a file may set. -/
inductive Key
  | extensions
  | excludedDirs
  | sortOutput
  | emitHeader
  | continueOnError
  | format
  deriving DecidableEq, Repr

namespace Key

/-- All keys. -/
def all : List Key :=
  [.extensions, .excludedDirs, .sortOutput, .emitHeader, .continueOnError, .format]

/-- The name of a key. -/
def name : Key → String
  | .extensions => "extensions"
  | .excludedDirs => "exclude_dirs"
  | .sortOutput => "sort_output"
  | .emitHeader => "emit_header"
  | .continueOnError => "continue_on_error"
  | .format => "output_format"

/-- The key of a name. -/
def ofScalar? : Scalar → Option Key
  | .text s => all.find? fun key => key.name = s
  | _ => none

end Key

/-- What is wrong with an entry. -/
inductive Problem
  | unknownKey (key : String)
  | notBoolean (key : Key)
  | notTexts (key : Key)
  | unknownFormat (shown : String)
  deriving DecidableEq, Repr

/-- The wording of a problem. -/
def Problem.message : Problem → String
  | .unknownKey key => "Unknown config key '" ++ key ++ "'"
  | .notBoolean key => "Config key '" ++ key.name ++ "' must be a boolean"
  | .notTexts key => "Config key '" ++ key.name ++ "' must be a list of strings"
  | .unknownFormat shown =>
    "output_format must be one of " ++ describedTexts (Format.all.map Format.name) ++
      ", got " ++ shown

/-- Why an entry chooses nothing. -/
inductive EntryFault
  | problem (problem : Problem)
  /-- The wording of the problem would hold a number with too many digits. -/
  | limit (fault : Decimal.LimitFault)
  deriving DecidableEq, Repr

/-- The texts that a value lists; one text alone is a list of one. -/
def textsOf? : Value → Option (List String)
  | .scalar (.text s) => some [s]
  | .list items => items.mapM Value.text?
  | _ => none

/-- The texts that a value lists for a key. -/
def textsFor (key : Key) (v : Value) : Except EntryFault (List String) :=
  match textsOf? v with
  | some texts => .ok texts
  | none => .error (.problem (.notTexts key))

/-- The truth value for a key. -/
def boolFor (key : Key) (v : Value) : Except EntryFault Bool :=
  match v.bool? with
  | some b => .ok b
  | none => .error (.problem (.notBoolean key))

/-- A problem whose wording shows something. -/
def showing (problem : String → Problem) (shown : Except Decimal.LimitFault String) :
    EntryFault :=
  match shown with
  | .ok text => .problem (problem text)
  | .error fault => .limit fault

/-- The format that a value names. -/
def formatFor (v : Value) : Except EntryFault Format :=
  match v.text?.bind Format.ofName? with
  | some format => .ok format
  | none => .error (showing .unknownFormat v.shown)

/-- What a value chooses under a key. -/
def choiceFor (key : Key) (v : Value) : Except EntryFault Choices :=
  match key with
  | .extensions => (textsFor key v).map fun ts => { extensions := some (normalExtensions ts) }
  | .excludedDirs =>
    (textsFor key v).map fun ts => { excludedDirs := some (ts.filter fun t => !t.isEmpty) }
  | .sortOutput => (boolFor key v).map fun b => { sortOutput := some b }
  | .emitHeader => (boolFor key v).map fun b => { emitHeader := some b }
  | .continueOnError => (boolFor key v).map fun b => { continueOnError := some b }
  | .format => (formatFor v).map fun f => { format := some f }

/-- What an entry chooses. -/
def choiceOf (entry : Scalar × Value) : Except EntryFault Choices :=
  match Key.ofScalar? entry.1 with
  | some key => choiceFor key entry.2
  | none => .error (showing .unknownKey entry.1.shownPlain)

/-- A failure of a strict reading, a warning of a lenient one. -/
def complain {α : Type} (strict : Bool) (message : α → String) (problem : α) : Logged α Unit :=
  if strict then .fail problem
  else .report .warning .settings (message problem ++ "; ignoring")

/-- What some entries choose after others have chosen. -/
def chooseFrom (strict : Bool) : Choices → Entries → Logged EntryFault Choices
  | chosen, [] => return chosen
  | chosen, entry :: rest =>
    match choiceOf entry with
    | .ok choice => chooseFrom strict (choice.over chosen) rest
    | .error (.limit fault) => .fail (.limit fault)
    | .error (.problem problem) => do
      (complain strict Problem.message problem).mapFault .problem
      chooseFrom strict chosen rest

/-- What the entries of a file choose. -/
def ofEntries (strict : Bool) (entries : Entries) : Logged EntryFault Choices :=
  chooseFrom strict {} entries

end Settings
end HaskellTags
