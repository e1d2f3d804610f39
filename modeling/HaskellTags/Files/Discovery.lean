import HaskellTags.Files.Basic

/-!
# Finding files

The files below a directory that have a wanted extension, sorted by path.  The
search does not enter directories whose name starts with a point or is
excluded; the directory where it starts is always entered.  What lies in a
directory whose path is too long is passed over without a word.  This bounds the
depth of the search, and there is no other limit on it.
-/

namespace HaskellTags
namespace Files

open Text

/-- What a search looks for and where it does not go. -/
structure Search where
  extensions : List String
  excluded : List String

/-- Whether a file has a wanted extension. -/
def Search.wants (s : Search) (name : String) : Bool :=
  s.extensions.contains (Path.extension name)

/-- Whether a directory is entered. -/
def Search.enters (s : Search) (name : String) : Bool :=
  name.toList.head? ≠ some '.' && !s.excluded.contains name

/-- Whether a path is short enough for the directory at it to be listed. -/
def isListable (path : String) : Bool :=
  (octetsOf path).length < pathLimit

mutual

/-- The wanted files below an item at a path. -/
def Search.foundAt (s : Search) (path : String) : Item → List String
  | .file _ => []
  | .directory listing => s.foundIn path listing

/-- The wanted files of a listing and below. -/
def Search.foundIn (s : Search) (path : String) : List (String × Item) → List String
  | [] => []
  | (name, .file _) :: rest =>
    (if s.wants name then [Path.join path name] else []) ++ s.foundIn path rest
  | (name, .directory listing) :: rest =>
    (if s.enters name && isListable (Path.join path name) then
        s.foundIn (Path.join path name) listing
      else []) ++
      s.foundIn path rest

end

/-- The wanted files below a path; below what is no directory there are none. -/
def Search.found (s : Search) (here : Entry) (path : String) : List String :=
  match entryAt here path with
  | some item => (s.foundAt path item).mergeSort fun a b => a ≤ b
  | none => []

end Files
end HaskellTags
