import HaskellTags.Files.Basic

/-!
# Writing files

Before a file is written, the directories above it are made.  What was made
stays even if the file cannot be written.
-/

namespace HaskellTags
namespace Files

open Text

/-- A file system after an operation, seen from the entry where it was seen before,
and whether the operation went well. -/
structure Changed where
  files : Entry
  outcome : Except Error Unit

/-- The text of the absolute path of some names; those below the working directory
follow its own text. -/
def absoluteText (workingDirectory : String) (here : Entry) (names : List String) : String :=
  if here.names.isPrefixOf names then
    (names.drop here.names.length).foldl Path.join workingDirectory
  else names.foldl Path.join "/"

/-- Makes the directories along some names below those already passed.  A file on
the way stops the next step; at the end it is in the way. -/
def makeDirectories (workingDirectory : String) (here : Entry) (passed : List String) :
    List String → Changed
  | [] => ⟨here, .ok ()⟩
  | name :: rest =>
    let names := passed ++ [name]
    let path := absoluteText workingDirectory here names
    let refused := fun code => (⟨here, .error (.refused code path)⟩ : Changed)
    if holdsNull name then ⟨here, .error .nullInPath⟩
    else if pathLimit ≤ (octetsOf path).length then refused .nameTooLong
    else
      match here.root.get? passed with
      | some (.directory listing) =>
        if isTooLong name then refused .nameTooLong
        else
          match Item.find listing name with
          | some (.directory _) => makeDirectories workingDirectory here names rest
          | some (.file _) =>
            if rest.isEmpty then refused .fileExists
            else makeDirectories workingDirectory here names rest
          | none =>
            makeDirectories workingDirectory { here with root := here.root.put names .empty }
              names rest
      | _ => refused .notADirectory

/-- The names from the root along a path, with every step upwards taken. -/
def namesOf (here : Entry) (path : String) : List String :=
  (Path.names path).foldl Path.goTo (startOf here path).names

/-- The parts of a path before its last name, and that name; slashes after the
name are passed over. -/
def splitTarget (path : String) : List String × Option String :=
  let parts := ((Path.parts path).reverse.dropWhile String.isEmpty).reverse
  (parts.dropLast, parts.getLast?)

/-- Whether a path ends in a slash. -/
def endsInSlash (path : String) : Bool :=
  path.toList.getLast? = some '/'

/-- The entry that a path would write, or the refusal. -/
def targetOf (here : Entry) (path : String) : Except Code Entry :=
  if path.isEmpty then .error .noSuchFile
  else if pathLimit ≤ (octetsOf path).length then .error .nameTooLong
  else
    let (before, last) := splitTarget path
    match before.foldlM Entry.step (startOf here path) with
    | .error code => .error code
    | .ok parent =>
      match parent.item?, last with
      | none, _ => .error .noSuchFile
      | some (.file _), _ => .error .notADirectory
      | some (.directory _), none => .error .isADirectory
      | some (.directory listing), some name =>
        if !Path.isName name || name = ".." || endsInSlash path then .error .isADirectory
        else if isTooLong name then .error .nameTooLong
        else
          match Item.find listing name with
          | some (.directory _) => .error .isADirectory
          | _ => .ok (parent.down name)

/-- Writes a file at a path, in a directory that is there. -/
def writeFile (here : Entry) (path : String) (content : Octets) : Changed :=
  if holdsNull path then ⟨here, .error .nullInPath⟩
  else
    match targetOf here path with
    | .error code => ⟨here, .error (.refused code path)⟩
    | .ok target => ⟨{ here with root := here.root.put target.names (.file content) }, .ok ()⟩

/-- Writes a file at a path after making the directories above it.  A relative path
needs a working directory that is still there. -/
def write (workingDirectory : String) (here : Entry) (path : String) (content : Octets) :
    Changed :=
  if (startOf here path).item?.isNone then ⟨here, .error (.refused .noSuchFile path)⟩
  else
    let made := makeDirectories workingDirectory here [] (namesOf here path).dropLast
    match made.outcome with
    | .error e => ⟨made.files, .error e⟩
    | .ok () => writeFile made.files path content

section Comparing

mutual

/-- The items below an item, each with its names after those above. -/
def below (above : List String) : Item → List (List String × Item)
  | .file _ => []
  | .directory listing => belowIn above listing

/-- The items of a listing and below. -/
def belowIn (above : List String) : List (String × Item) → List (List String × Item)
  | [] => []
  | (name, item) :: rest =>
    (above ++ [name], item) :: below (above ++ [name]) item ++ belowIn above rest

end

/-- What an item shows of itself: the content of a file. -/
def Item.shown : Item → Option Octets
  | .file content => some content
  | .directory _ => none

/-- What is new or has changed below an entry, by path, with the content of a
file. -/
def changes (before after : Entry) : List (String × Option Octets) :=
  let found := (after.item?.toList.flatMap (below [])).filter fun e =>
    match before.item?.bind (Item.get? e.1) with
    | some old => old.shown ≠ e.2.shown
    | none => true
  (found.map fun e => ("/".intercalate e.1, e.2.shown)).mergeSort fun a b => a.1 ≤ b.1

end Comparing
end Files
end HaskellTags
