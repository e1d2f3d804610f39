import HaskellTags.Log.Record
import HaskellTags.Outline.Basic

/-!
# Warnings of an outline

What an outline had to leave out because the concrete tree lacks it.
-/

namespace HaskellTags
namespace Outline

/-- What a concrete tree lacks. -/
inductive Warning
  | unexpectedRoot (type : String)
  | headerWithoutName
  | importWithoutModule (line : Int)
  | dataWithoutName (form : DataForm) (line : Int)
  | signatureWithoutNames (line : Int)
  deriving DecidableEq, Repr

/-- The wording of a warning about a file. -/
def Warning.message (file : String) : Warning → String
  | .unexpectedRoot type => "Unexpected root node '" ++ type ++ "' in " ++ file
  | .headerWithoutName => "Module header without a name in " ++ file
  | .importWithoutModule line =>
    "Import without a module name at " ++ file ++ ":" ++ toString line
  | .dataWithoutName form line =>
    form.name ++ " declaration without a name at " ++ file ++ ":" ++ toString line
  | .signatureWithoutNames line =>
    "Signature without names at " ++ file ++ ":" ++ toString line

/-- A warning as a log record. -/
def Warning.record (file : String) (w : Warning) : Log.Record :=
  .of .warning .outline (w.message file)

end Outline
end HaskellTags
