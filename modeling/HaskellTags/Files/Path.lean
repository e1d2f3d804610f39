import HaskellTags.Text.Lines
import HaskellTags.Text.Utf8

/-!
# Paths

Paths are texts whose parts stand between slashes.  A text is kept as it was
given; the functions here read parts of it.
-/

namespace HaskellTags
namespace Files
namespace Path

/-- The texts between the slashes. -/
def parts (path : String) : List String :=
  Text.splitText (· == '/') path

/-- Whether a part names an entry of a directory. -/
def isName (part : String) : Bool :=
  !part.isEmpty && part != "."

/-- The parts that name entries. -/
def names (path : String) : List String :=
  (parts path).filter isName

/-- Whether a path starts at the root. -/
def isAbsolute (path : String) : Bool :=
  path.toList.head? = some '/'

/-- The slashes before the first part of a normal path: two are kept, more are
one. -/
def rootText (path : String) : String :=
  match (path.toList.takeWhile (· == '/')).length with
  | 0 => ""
  | 2 => "//"
  | _ => "/"

/-- A path without empty and idle parts; nothing at all is the directory itself. -/
def normal (path : String) : String :=
  let text := rootText path ++ "/".intercalate (names path)
  if text.isEmpty then "." else text

/-- The last name of a path. -/
def lastName (path : String) : String :=
  (names path).getLast?.getD ""

/-- Characters up to the last point and from it on. -/
def splitLastPoint (cs : List Char) : Option (List Char × List Char) :=
  let after := cs.reverse.takeWhile (· != '.')
  if after.length < cs.length then
    let n := cs.length - after.length - 1
    some (cs.take n, cs.drop n)
  else none

/-- The suffix of a name: from its last point on, unless that is its first or
its last character. -/
def suffix (name : String) : String :=
  match splitLastPoint name.toList with
  | some (stem, tail) => if stem.isEmpty || tail.length ≤ 1 then "" else String.ofList tail
  | none => ""

/-- The extension of a path: from the last point of its last part on, unless
nothing but points stands before it. -/
def extension (path : String) : String :=
  match splitLastPoint (((parts path).getLast?.getD "").toList) with
  | some (stem, tail) => if stem.all (· == '.') then "" else String.ofList tail
  | none => ""

/-- The path of an entry of a directory. -/
def join (directory name : String) : String :=
  if directory.isEmpty || directory.toList.getLast? = some '/' then directory ++ name
  else directory ++ "/" ++ name

/-- Names with one more after them; a step upwards takes the last one away. -/
def goTo (names : List String) (name : String) : List String :=
  if name = ".." then names.dropLast else names ++ [name]

end Path
end Files
end HaskellTags
