import HaskellTags.Text.Quoted

/-!
# Errors of the file system

Why an operation on a path fails: the number and the words by which the system refuses
it, and the message that quotes the path.
-/

namespace HaskellTags
namespace Files

/-- What the file system refuses. -/
inductive Code
  | noSuchFile
  | inputOutput
  | permissionDenied
  | fileExists
  | notADirectory
  | isADirectory
  | nameTooLong
  deriving DecidableEq, Repr

namespace Code

/-- The number of a refusal. -/
def number : Code → Nat
  | .noSuchFile => 2
  | .inputOutput => 5
  | .permissionDenied => 13
  | .fileExists => 17
  | .notADirectory => 20
  | .isADirectory => 21
  | .nameTooLong => 36

/-- The words of a refusal. -/
def words : Code → String
  | .noSuchFile => "No such file or directory"
  | .inputOutput => "Input/output error"
  | .permissionDenied => "Permission denied"
  | .fileExists => "File exists"
  | .notADirectory => "Not a directory"
  | .isADirectory => "Is a directory"
  | .nameTooLong => "File name too long"

end Code

/-- An error about a path. -/
inductive Error
  | refused (code : Code) (path : String)
  /-- The path holds the character that ends paths. -/
  | nullInPath
  deriving DecidableEq, Repr

/-- The wording of an error. -/
def Error.message : Error → String
  | .refused code path =>
    "[Errno " ++ toString code.number ++ "] " ++ code.words ++ ": " ++ Text.quoted path
  | .nullInPath => "embedded null byte"

/-- Whether an error says that there is no such file. -/
def Error.isMissing : Error → Bool
  | .refused .noSuchFile _ => true
  | _ => false

end Files
end HaskellTags
