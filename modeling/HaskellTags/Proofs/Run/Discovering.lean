import HaskellTags.Proofs.Files.Discovery
import HaskellTags.Proofs.Run.Sweeping

/-!
# The source files below a directory

`discover_is_exact` says what the search for source files comes to, on the tree of files
alone.  It finds the wanted files, hidden and excluded directories apart, in the order of
code points, whatever the order of the listings is.

The one thing that a tree does not tell is how long the path of the directory was written.
A path may be longer than the file system takes, and then the directory at it is passed
over, or a file that was found there is no file when it is looked at again.
-/

namespace HaskellTags
namespace Run

open Text Files

section Searching

/-- What was found below a directory: exactly the wanted files that no hidden or excluded
directory stands before, and whose own directory has a path that is short enough.  The
paths grow in the order of code points and have a wanted extension.  They lead to files
exactly if they are short enough themselves. -/
structure ExactlyFound (w : World) (search : Search) (directory : String)
    (found : List String) : Prop where
  growing : found.Pairwise fun p q => p ≠ q ∧ InCodeOrder p q
  mem_iff :
    ∀ path : String,
      path ∈ found ↔
        ∃ item dirs name, entryAt w.files directory = some item ∧
          search.Reaches directory item dirs name ∧
          path = (dirs ++ [name]).foldl Path.join directory
  wanted : ∀ path ∈ found, search.extensions.contains (Path.extension path) = true
  isFile_iff :
    ∀ path ∈ found, isFile w.files path = true ↔ (octetsOf path).length < pathLimit

/-- In a well-formed tree the search for source files finds exactly the files that it is
for, and the same ones whatever the order of the listings is.  It fails only for a text
that is no path. -/
theorem discover_is_exact
    (w : World)
    (hroot : w.files.root.WellFormed)
    (search : Search)
    (directory : String) :
    (holdsNull directory = true →
      (discover w search directory).outcome = .error (.unreadable .nullInPath)) ∧
    (holdsNull directory = false →
      ∃ found : List String,
        (discover w search directory).outcome = .ok found ∧
          ExactlyFound w search directory found ∧
          ∀ w' : World,
            w'.files.names = w.files.names →
            w'.files.root.WellFormed →
            w.files.root.SameFiles w'.files.root →
            (discover w' search directory).outcome = .ok found) := by
  constructor
  · intro hnull
    rw [discover_outcome_eq, hnull]
    rfl
  · intro hpath
    have houtcome : ∀ v : World,
        (discover v search directory).outcome = .ok (search.found v.files directory) := by
      intro v
      rw [discover_outcome_eq, hpath]
      rfl
    refine ⟨_, houtcome w, ⟨Search.pairwise_inCodeOrder_found hroot,
      fun path => Search.mem_found_iff hroot,
      fun path hfound => (Search.checks_of_mem_found hroot hfound).1,
      fun path hfound => (Search.checks_of_mem_found hroot hfound).2⟩, ?_⟩
    intro w' hnames hroot' hsame
    have hfiles : w'.files = ⟨w'.files.root, w.files.names⟩ := by
      rw [← hnames]
    rw [houtcome w', hfiles, Search.found_eq_of_sameFiles hroot hroot' hsame]

namespace Sample

/-- A source, a text, a hidden directory and one with a source. -/
def listing : List (String × Item) :=
  [("B.hs", .file []), ("notes.md", .file []), (".git", .directory [("C.hs", .file [])]),
    ("lib", .directory [("A.hs", .file [])])]

/-- A world whose root is listed. -/
def listed (listing : List (String × Item)) : World :=
  { World.empty "/" with files := .directory listing }

theorem wellFormed_singleton
    {name : String}
    (hname : ProperName name) :
    (Item.directory [(name, .file [])]).WellFormed := by
  apply Item.wellFormed_directory
  · exact List.nodup_singleton name
  · simpa using ⟨hname, Item.wellFormed_file []⟩

theorem wellFormed_listing :
    (Item.directory listing).WellFormed := by
  apply Item.wellFormed_directory (by decide)
  simp only [listing, List.forall_mem_cons]
  refine ⟨⟨by decide +kernel, Item.wellFormed_file []⟩,
    ⟨by decide +kernel, Item.wellFormed_file []⟩,
    ⟨by decide +kernel, wellFormed_singleton (by decide +kernel)⟩,
    ⟨by decide +kernel, wellFormed_singleton (by decide +kernel)⟩, List.forall_mem_nil _⟩

end Sample

/-- The sources are found in either order of the listing, and the hidden one is not. -/
theorem discover_is_exact_sample :
    (Item.directory Sample.listing).WellFormed ∧
      ∃ found : List String,
        (discover (Sample.listed Sample.listing) ⟨[".hs"], []⟩ ".").outcome = .ok found ∧
          (discover (Sample.listed Sample.listing.reverse) ⟨[".hs"], []⟩ ".").outcome =
            .ok found ∧
          ExactlyFound (Sample.listed Sample.listing) ⟨[".hs"], []⟩ "." found ∧
          found = ["./B.hs", "./lib/A.hs"] := by
  have hroot := Sample.wellFormed_listing
  have hperm := (List.reverse_perm Sample.listing).symm
  obtain ⟨found, hfound, hexact, hother⟩ :=
    (discover_is_exact (Sample.listed Sample.listing) hroot ⟨[".hs"], []⟩ ".").2 (by decide)
  refine ⟨hroot, found, hfound, ?_, hexact, ?_⟩
  · exact hother (Sample.listed Sample.listing.reverse) rfl (hroot.of_perm hperm)
      (Item.sameFiles_of_perm hroot hperm)
  · have hbelow : Search.foundAt ⟨[".hs"], []⟩ "." (.directory Sample.listing) =
        ["./B.hs", "./lib/A.hs"] := by
      simp only [Sample.listing, Search.foundAt, Search.foundIn]
      decide +kernel
    have hentry : entryAt (Sample.listed Sample.listing).files "." =
        some (.directory Sample.listing) := rfl
    have hsorted : Search.found ⟨[".hs"], []⟩ (Sample.listed Sample.listing).files "." =
        ["./B.hs", "./lib/A.hs"] := by
      rw [Search.found, hentry]
      simp only [hbelow]
      exact List.mergeSort_of_pairwise (by decide +kernel)
    rw [discover_outcome_eq, hsorted] at hfound
    exact (Except.ok.inj hfound).symm

end Searching

section LongPaths

/-- A path that stays where it starts. -/
def dots : Nat → String
  | 0 => ""
  | n + 1 => "." ++ "/" ++ dots n

theorem toList_dots_succ
    (n : Nat) :
    (dots (n + 1)).toList = '.' :: '/' :: (dots n).toList := by
  simp [dots]

theorem length_octetsOf_dots
    (n : Nat)
    (name : String) :
    (octetsOf (dots n ++ name)).length = 2 * n + (octetsOf name).length := by
  have hdot : (octetsOf ("." ++ "/")).length = 2 := rfl
  induction n with
  | zero =>
      simp [dots]
  | succ n ih =>
      have happend : octetsOf (dots (n + 1) ++ name) =
          octetsOf ("." ++ "/") ++ octetsOf (dots n ++ name) := by
        simp [octetsOf, dots]
      rw [happend, List.length_append, hdot, ih]
      omega

theorem holdsNull_dots
    (n : Nat) :
    holdsNull (dots n) = false := by
  induction n with
  | zero =>
      rfl
  | succ n ih =>
      rw [holdsNull, toList_dots_succ]
      exact ih

theorem join_dots
    (n : Nat)
    (name : String) :
    Path.join (dots (n + 1)) name = dots (n + 1) ++ name := by
  have hend : (dots (n + 1)).toList.getLast? = some '/' := by
    induction n with
    | zero =>
        rfl
    | succ n ih =>
        rw [toList_dots_succ, List.getLast?_cons_cons, List.getLast?_cons, ih]
        rfl
  rw [Path.join, hend]
  simp

theorem parts_dots_succ
    (n : Nat) :
    Path.parts (dots (n + 1)) = "." :: Path.parts (dots n) := by
  rw [dots, Path.parts_append_slash]
  rfl

/-- Nothing is left by such a path. -/
theorem foldlM_step_dots
    {e : Entry}
    (he : e.root.HasDirectory e.names)
    (n : Nat) :
    (Path.parts (dots n)).foldlM Entry.step e = .ok e := by
  have hstay : ∀ part, Path.isName part = false → e.step part = .ok e :=
    fun part hpart => step_eq_ok_iff.2 ⟨he, .inl ⟨hpart, rfl⟩⟩
  induction n with
  | zero =>
      have hparts : Path.parts (dots 0) = [""] := Path.parts_of_not_mem List.not_mem_nil
      rw [hparts, List.foldlM_cons, hstay "" rfl]
      rfl
  | succ n ih =>
      rw [parts_dots_succ, List.foldlM_cons, hstay "." rfl]
      exact ih

theorem entryAt_dots
    {n : Nat}
    (hn : 2 * (n + 1) < pathLimit)
    (listing : List (String × Item)) :
    entryAt (.directory listing) (dots (n + 1)) = some (.directory listing) := by
  have hlength : (octetsOf (dots (n + 1))).length = 2 * (n + 1) := by
    have h := length_octetsOf_dots (n + 1) ""
    rw [String.append_empty] at h
    exact h
  have hhere : startOf (.directory listing) (dots (n + 1)) = .directory listing := by
    rw [startOf, Path.isAbsolute, toList_dots_succ]
    rfl
  refine entryAt_eq_some_iff.2 ⟨holdsNull_dots (n + 1), .directory listing, ?_, rfl⟩
  refine follow_eq_ok_iff.2 ⟨?_, hlength ▸ hn, ?_⟩
  · rw [String.isEmpty_eq_false_iff]
    intro hempty
    have hnil := String.toList_eq_nil_iff.2 hempty
    rw [toList_dots_succ] at hnil
    cases hnil
  · have hdirectory : (Item.directory listing).HasDirectory [] := rfl
    rw [hhere]
    exact foldlM_step_dots hdirectory (n + 1)

/-- A source, and one in a directory with a name that is as long. -/
def Sample.deep : List (String × Item) :=
  [("ABC.hs", .file []), ("abcdef", .directory [("A.hs", .file [])])]

/-- Below a path that is nearly too long a source is passed over with its directory, and
the one that is found is no file when it is looked at.  A text that is no path is not
searched at all. -/
theorem long_path_hides_source :
    (Item.directory Sample.deep).WellFormed ∧
      entryAt (Sample.listed Sample.deep).files (dots 2045) = some (.directory Sample.deep) ∧
      (Item.directory Sample.deep).get? ["abcdef", "A.hs"] = some (.file []) ∧
      (discover (Sample.listed Sample.deep) ⟨[".hs"], []⟩ (dots 2045)).outcome =
        .ok [dots 2045 ++ "ABC.hs"] ∧
      isFile (Sample.listed Sample.deep).files (dots 2045 ++ "ABC.hs") = false ∧
      (discover (Sample.listed Sample.deep) ⟨[".hs"], []⟩ "\x00").outcome =
        .error (.unreadable .nullInPath) := by
  have hentry : entryAt (Sample.listed Sample.deep).files (dots 2045) =
      some (.directory Sample.deep) :=
    entryAt_dots (by decide) Sample.deep
  have hdeep : isListable (dots 2045 ++ "abcdef") = false := by
    rw [isListable, length_octetsOf_dots]
    decide
  have hlong : ¬ (octetsOf (dots 2045 ++ "ABC.hs")).length < pathLimit := by
    rw [length_octetsOf_dots]
    decide
  refine ⟨?_, hentry, rfl, ?_, ?_, rfl⟩
  · apply Item.wellFormed_directory (by decide)
    simp only [Sample.deep, List.forall_mem_cons]
    exact ⟨⟨by decide +kernel, Item.wellFormed_file []⟩,
      ⟨by decide +kernel, Sample.wellFormed_singleton (by decide +kernel)⟩,
      List.forall_mem_nil _⟩
  · have hfound : Search.foundAt ⟨[".hs"], []⟩ (dots 2045) (.directory Sample.deep) =
        [dots 2045 ++ "ABC.hs"] := by
      have hwanted : Search.wants ⟨[".hs"], []⟩ "ABC.hs" = true := by decide +kernel
      simp only [Sample.deep, Search.foundAt, Search.foundIn, join_dots, hdeep, hwanted,
        Bool.and_false, Bool.false_eq_true, if_false, if_true, List.append_nil]
    rw [discover_outcome_eq, holdsNull_dots, Search.found, hentry]
    simp [hfound]
  · have hproper : ∀ name ∈ ["ABC.hs"], ProperName name := by
      rw [List.forall_mem_singleton]
      decide +kernel
    have hgone := entryAt_foldl_join hentry hproper (List.cons_ne_nil _ _) rfl
    rw [List.foldl_cons, List.foldl_nil, join_dots, if_neg hlong] at hgone
    rw [isFile, hgone]

end LongPaths

end Run
end HaskellTags
