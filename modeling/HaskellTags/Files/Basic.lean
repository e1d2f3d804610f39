import HaskellTags.Files.Error
import HaskellTags.Files.Path

/-!
# File systems

A file system as a value: files hold octets, directories list what is in them.
An entry is a place in a file system, told by the names that lead to it from the
root.  Paths are followed part by part, from the entry of the working directory
or from the root, and each step needs a directory to start from.
-/

namespace HaskellTags
namespace Files

open Text

/-- A file or a directory. -/
inductive Item
  | file (content : Octets)
  | directory (listing : List (String × Item))

namespace Item

/-- A directory without items. -/
def empty : Item := .directory []

/-- Whether an item is a directory. -/
def isDirectory : Item → Bool
  | .directory _ => true
  | .file _ => false

/-- The item of a name in a listing. -/
def find (listing : List (String × Item)) (name : String) : Option Item :=
  (listing.find? fun e => e.1 = name).map Prod.snd

/-- The item below some names. -/
def get? : List String → Item → Option Item
  | [], item => some item
  | _ :: _, .file _ => none
  | name :: rest, .directory listing => (find listing name).bind (get? rest)

/-- A listing with an item set, in its place or at the end. -/
def setIn (listing : List (String × Item)) (name : String) (item : Item) :
    List (String × Item) :=
  match listing with
  | [] => [(name, item)]
  | (n, old) :: rest => if n = name then (n, item) :: rest else (n, old) :: setIn rest name item

/-- A tree with an item put below some names; the directories on the way are
made, and below a file nothing is put. -/
def put : Item → List String → Item → Item
  | _, [], new => new
  | .file content, _ :: _, _ => .file content
  | .directory listing, name :: rest, new =>
    .directory (setIn listing name (put ((find listing name).getD empty) rest new))

/-- A tree without the item below some names. -/
def remove : List String → Item → Item
  | [], item => item
  | _ :: _, .file content => .file content
  | [name], .directory listing => .directory (listing.filter fun e => e.1 ≠ name)
  | name :: rest, .directory listing =>
    match find listing name with
    | some item => .directory (setIn listing name (remove rest item))
    | none => .directory listing

end Item

/-- An entry of a file system: the tree below the root, and the names that lead
from the root to the entry. -/
structure Entry where
  root : Item
  names : List String

namespace Entry

/-- What is at an entry, if there is anything. -/
def item? (e : Entry) : Option Item :=
  e.root.get? e.names

/-- The root of a file system with a listing. -/
def directory (listing : List (String × Item)) : Entry :=
  ⟨.directory listing, []⟩

/-- The root of the file system. -/
def top (e : Entry) : Entry :=
  { e with names := [] }

/-- The entry above; the root is above itself. -/
def up (e : Entry) : Entry :=
  { e with names := e.names.dropLast }

/-- The entry of a name below. -/
def down (e : Entry) (name : String) : Entry :=
  { e with names := e.names ++ [name] }

end Entry

section Following

/-- The greatest number of octets of a name. -/
def nameLimit : Nat := 255

/-- The number of octets that a path does not reach. -/
def pathLimit : Nat := 4096

/-- Whether a name is too long. -/
def isTooLong (name : String) : Bool :=
  nameLimit < (octetsOf name).length

/-- One step along a path. -/
def Entry.step (e : Entry) (part : String) : Except Code Entry :=
  match e.item? with
  | none => .error .noSuchFile
  | some (.file _) => .error .notADirectory
  | some (.directory listing) =>
    if !Path.isName part then .ok e
    else if part = ".." then .ok e.up
    else if isTooLong part then .error .nameTooLong
    else
      match Item.find listing part with
      | some _ => .ok (e.down part)
      | none => .error .noSuchFile

/-- The entry where a path starts. -/
def startOf (here : Entry) (path : String) : Entry :=
  if Path.isAbsolute path then here.top else here

/-- The entry that a path leads to. -/
def follow (here : Entry) (path : String) : Except Code Entry :=
  if path.isEmpty then .error .noSuchFile
  else if pathLimit ≤ (octetsOf path).length then .error .nameTooLong
  else (Path.parts path).foldlM Entry.step (startOf here path)

/-- Whether a path holds the character that ends paths. -/
def holdsNull (path : String) : Bool :=
  path.toList.contains '\x00'

/-- What is at a path, if there is anything. -/
def entryAt (here : Entry) (path : String) : Option Item :=
  if holdsNull path then none else (follow here path).toOption.bind Entry.item?

/-- Whether a path leads to a file. -/
def isFile (here : Entry) (path : String) : Bool :=
  match entryAt here path with
  | some (.file _) => true
  | _ => false

/-- Whether a path leads to a directory. -/
def isDirectory (here : Entry) (path : String) : Bool :=
  match entryAt here path with
  | some (.directory _) => true
  | _ => false

/-- The octets of the file at a path. -/
def read (here : Entry) (path : String) : Except Error Octets :=
  if holdsNull path then .error .nullInPath
  else
    match follow here path with
    | .error code => .error (.refused code path)
    | .ok e =>
      match e.item? with
      | none => .error (.refused .noSuchFile path)
      | some (.directory _) => .error (.refused .isADirectory path)
      | some (.file content) => .ok content

end Following
end Files
end HaskellTags
