import HaskellTags.Files.Discovery
import HaskellTags.Proofs.Files.Paths
import HaskellTags.Proofs.Text.CodePoints
import Mathlib.Data.List.Nodup

/-!
# What a search finds

A search goes down a tree of files, entry by entry.  What it gets to is said on the tree
alone by `Reaches`: the names of the directories on the way, the name of a file, and no
listing.  `mem_foundIn_iff` says that nothing else is found.

So the order of a listing does not matter: what is found are the same paths, each of
them once, and they are sorted.
-/

namespace HaskellTags
namespace Files

open Text

namespace Item

section Trees

/-- Every directory of a tree lists proper names, and each of them once. -/
structure WellFormed (root : Item) : Prop where
  nodup :
    ∀ {names : List String} {listing : List (String × Item)},
      root.get? names = some (.directory listing) → (listing.map Prod.fst).Nodup
  proper :
    ∀ {names : List String} {listing : List (String × Item)},
      root.get? names = some (.directory listing) →
        ∀ entry ∈ listing, ProperName entry.1

theorem WellFormed.nodup_names
    {listing : List (String × Item)}
    (h : (directory listing).WellFormed) :
    (listing.map Prod.fst).Nodup :=
  h.nodup (show (directory listing).get? [] = _ from rfl)

theorem WellFormed.properName_of_mem
    {listing : List (String × Item)} {entry : String × Item}
    (h : (directory listing).WellFormed)
    (hentry : entry ∈ listing) :
    ProperName entry.1 :=
  h.proper (show (directory listing).get? [] = _ from rfl) entry hentry

theorem WellFormed.below
    {root item : Item} {names : List String}
    (h : root.WellFormed)
    (hitem : root.get? names = some item) :
    item.WellFormed := by
  have hget : ∀ more : List String, root.get? (names ++ more) = item.get? more := by
    intro more
    rw [get?_append, hitem]
    rfl
  constructor
  · intro more listing hlisting
    rw [← hget] at hlisting
    exact h.nodup hlisting
  · intro more listing hlisting
    rw [← hget] at hlisting
    exact h.proper hlisting

theorem wellFormed_file
    (content : Octets) :
    (file content).WellFormed := by
  constructor
  · intro names listing h
    cases names <;> cases h
  · intro names listing h
    cases names <;> cases h

theorem wellFormed_directory
    {listing : List (String × Item)}
    (hnodup : (listing.map Prod.fst).Nodup)
    (hentries : ∀ entry ∈ listing, ProperName entry.1 ∧ entry.2.WellFormed) :
    (directory listing).WellFormed := by
  -- names that lead into the tree lead into one of the entries first
  have hbelow :
      ∀ {name : String} {names : List String} {sub : List (String × Item)},
        (directory listing).get? (name :: names) = some (directory sub) →
          ∃ item : Item, item.WellFormed ∧ item.get? names = some (directory sub) := by
    intro name names sub h
    obtain ⟨item, hitem, hsub⟩ := Option.bind_eq_some_iff.1 h
    obtain ⟨entry, hentry, rfl⟩ := Option.map_eq_some_iff.1 hitem
    exact ⟨entry.2, (hentries entry (List.mem_of_find?_eq_some hentry)).2, hsub⟩
  constructor
  · intro names sub h
    cases names with
    | nil =>
        cases h
        exact hnodup
    | cons name names =>
        obtain ⟨item, hitem, hsub⟩ := hbelow h
        exact hitem.nodup hsub
  · intro names sub h
    cases names with
    | nil =>
        cases h
        intro entry hentry
        exact (hentries entry hentry).1
    | cons name names =>
        obtain ⟨item, hitem, hsub⟩ := hbelow h
        exact hitem.proper hsub

/-- A name that is listed once is found with its item. -/
theorem find_eq_some_iff
    {listing : List (String × Item)}
    (hnodup : (listing.map Prod.fst).Nodup)
    {name : String} {item : Item} :
    find listing name = some item ↔ (name, item) ∈ listing := by
  constructor
  · intro hfind
    obtain ⟨entry, hentry, rfl⟩ := Option.map_eq_some_iff.1 hfind
    have hname : entry.1 = name := by
      simpa using List.find?_some hentry
    rw [← hname]
    exact List.mem_of_find?_eq_some hentry
  · intro hmem
    have hsome : (listing.find? fun e => e.1 = name).isSome = true :=
      List.find?_isSome.2 ⟨(name, item), hmem, decide_eq_true rfl⟩
    obtain ⟨entry, hentry⟩ := Option.isSome_iff_exists.1 hsome
    have hname : entry.1 = name := by
      simpa using List.find?_some hentry
    have heq : entry = (name, item) :=
      List.inj_on_of_nodup_map hnodup (List.mem_of_find?_eq_some hentry) hmem hname
    rw [find, hentry, heq]
    rfl

theorem WellFormed.find_iff
    {listing : List (String × Item)}
    (h : (directory listing).WellFormed)
    {name : String} {item : Item} :
    find listing name = some item ↔ (name, item) ∈ listing :=
  find_eq_some_iff h.nodup_names

theorem get?_cons
    (listing : List (String × Item))
    (name : String)
    (names : List String) :
    (directory listing).get? (name :: names) = (find listing name).bind (get? names) :=
  rfl

theorem WellFormed.of_find
    {listing : List (String × Item)} {name : String} {item : Item}
    (h : (directory listing).WellFormed)
    (hfind : find listing name = some item) :
    item.WellFormed := by
  have hget : (directory listing).get? [name] = some item := by
    rw [get?_cons, hfind]
    rfl
  exact h.below hget

/-- The names that lead to something are proper. -/
theorem WellFormed.properName
    {root item : Item} {names : List String}
    (h : root.WellFormed)
    (hitem : root.get? names = some item) :
    ∀ name ∈ names, ProperName name := by
  induction names generalizing root with
  | nil =>
      nofun
  | cons first names ih =>
      cases root with
      | file content =>
          cases hitem
      | directory listing =>
          rw [get?_cons, Option.bind_eq_some_iff] at hitem
          obtain ⟨child, hchild, hitem⟩ := hitem
          intro name hname
          rcases List.mem_cons.1 hname with rfl | hlater
          · exact h.properName_of_mem (h.find_iff.1 hchild)
          · exact ih (h.of_find hchild) hitem name hlater

/-- What holds of a listing if it holds of all listings right below it, holds of all. -/
theorem listing_induction
    {P : List (String × Item) → Prop}
    (step : ∀ listing,
      (∀ name sub, (name, directory sub) ∈ listing → P sub) → P listing)
    (listing : List (String × Item)) :
    P listing := by
  apply step
  intro name sub hmem
  exact listing_induction step sub
termination_by sizeOf listing
decreasing_by
  have hsize := List.sizeOf_lt_of_mem hmem
  simp only [Prod.mk.sizeOf_spec, directory.sizeOf_spec] at hsize
  omega

/-- Two trees hold the same directories and the same files, in whatever order these are
listed. -/
def SameFiles (root root' : Item) : Prop :=
  ∀ names : List String, root'.shownAt names = root.shownAt names

theorem SameFiles.symm
    {root root' : Item}
    (h : SameFiles root root') :
    SameFiles root' root :=
  fun names => (h names).symm

theorem SameFiles.keeps
    {root root' : Item}
    (h : SameFiles root root') :
    Keeps root root' where
  directories := by
    intro names hnames
    exact (h names).trans hnames
  items := by
    intro names hnames
    rw [h names]
    exact hnames

theorem WellFormed.of_perm
    {listing listing' : List (String × Item)}
    (h : (directory listing).WellFormed)
    (hperm : listing.Perm listing') :
    (directory listing').WellFormed := by
  apply wellFormed_directory ((hperm.map Prod.fst).nodup_iff.1 h.nodup_names)
  intro entry hentry
  have hmem := hperm.mem_iff.2 hentry
  exact ⟨h.properName_of_mem hmem, h.of_find (h.find_iff.2 hmem)⟩

/-- A directory listed in another order holds the same. -/
theorem sameFiles_of_perm
    {listing listing' : List (String × Item)}
    (h : (directory listing).WellFormed)
    (hperm : listing.Perm listing') :
    SameFiles (directory listing) (directory listing') := by
  have h' := h.of_perm hperm
  intro names
  cases names with
  | nil =>
      rfl
  | cons name names =>
      have hfind : find listing' name = find listing name := by
        ext item
        rw [h'.find_iff, h.find_iff, hperm.mem_iff]
      rw [shownAt_cons, shownAt_cons, hfind]

theorem shownAt_eq_file_iff
    {root : Item} {names : List String} {content : Octets} :
    root.shownAt names = some (some content) ↔ root.get? names = some (.file content) := by
  unfold shownAt
  cases root.get? names with
  | none =>
      simp
  | some item =>
      cases item <;> simp [shown]

end Trees

end Item

namespace Search

section Reaching

/-- A wanted file below an item at a path, which a search gets to: the directories on the
way are neither hidden nor excluded, and the path of the last one is short enough. -/
structure Reaches (s : Search) (path : String) (item : Item) (dirs : List String)
    (name : String) : Prop where
  file : ∃ content : Octets, item.get? (dirs ++ [name]) = some (.file content)
  wanted : Path.extension name ∈ s.extensions
  entered : ∀ d ∈ dirs, d.toList.head? ≠ some '.' ∧ d ∉ s.excluded
  short : (octetsOf (dirs.foldl Path.join path)).length < pathLimit

theorem wants_iff
    {s : Search} {name : String} :
    s.wants name = true ↔ Path.extension name ∈ s.extensions := by
  simp [wants]

theorem enters_iff
    {s : Search} {name : String} :
    s.enters name = true ↔ name.toList.head? ≠ some '.' ∧ name ∉ s.excluded := by
  simp [enters]

theorem isListable_iff
    {path : String} :
    isListable path = true ↔ (octetsOf path).length < pathLimit := by
  simp [isListable]

theorem reaches_nil_iff
    {s : Search} {path : String} {listing : List (String × Item)} {name : String} :
    s.Reaches path (.directory listing) [] name ↔
      (∃ content, Item.find listing name = some (.file content)) ∧
        s.wants name = true ∧ isListable path = true := by
  have hget :
      (Item.directory listing).get? ([] ++ [name]) = Item.find listing name := by
    rw [List.nil_append, Item.get?_cons]
    cases Item.find listing name <;> rfl
  rw [wants_iff, isListable_iff]
  constructor
  · intro h
    obtain ⟨content, hcontent⟩ := h.file
    exact ⟨⟨content, hget ▸ hcontent⟩, h.wanted, h.short⟩
  · rintro ⟨⟨content, hcontent⟩, hwanted, hshort⟩
    exact ⟨⟨content, hget.trans hcontent⟩, hwanted, nofun, hshort⟩

theorem reaches_cons_iff
    {s : Search} {path : String} {listing : List (String × Item)} {dir : String}
    {dirs : List String} {name : String} :
    s.Reaches path (.directory listing) (dir :: dirs) name ↔
      ∃ sub, Item.find listing dir = some (.directory sub) ∧
        s.enters dir = true ∧ isListable (Path.join path dir) = true ∧
        s.Reaches (Path.join path dir) (.directory sub) dirs name := by
  rw [enters_iff, isListable_iff]
  constructor
  · intro h
    obtain ⟨content, hcontent⟩ := h.file
    rw [List.cons_append, Item.get?_cons, Option.bind_eq_some_iff] at hcontent
    obtain ⟨item, hitem, hcontent⟩ := hcontent
    cases item with
    | file other =>
        cases dirs <;> cases hcontent
    | directory sub =>
        refine ⟨sub, hitem, h.entered dir List.mem_cons_self, ?_, ⟨content, hcontent⟩,
          h.wanted, ?_, h.short⟩
        · exact Nat.lt_of_le_of_lt (Path.length_octetsOf_le_foldl_join dirs _) h.short
        · intro d hd
          exact h.entered d (List.mem_cons_of_mem dir hd)
  · rintro ⟨sub, hsub, hdir, -, h⟩
    obtain ⟨content, hcontent⟩ := h.file
    refine ⟨⟨content, ?_⟩, h.wanted, ?_, h.short⟩
    · rw [List.cons_append, Item.get?_cons, hsub]
      exact hcontent
    · intro d hd
      rcases List.mem_cons.1 hd with rfl | hlater
      · exact hdir
      · exact h.entered d hlater

end Reaching

section Finding

/-- The wanted files that an entry of a directory is or holds. -/
def foundOf (s : Search) (path : String) : String × Item → List String
  | (name, .file _) => if s.wants name then [Path.join path name] else []
  | (name, .directory listing) =>
    if s.enters name && isListable (Path.join path name) then
      s.foundIn (Path.join path name) listing
    else []

theorem foundIn_eq_flatMap
    (s : Search)
    (path : String)
    (listing : List (String × Item)) :
    s.foundIn path listing = listing.flatMap (s.foundOf path) := by
  induction listing with
  | nil =>
      rw [foundIn]
      rfl
  | cons entry listing ih =>
      obtain ⟨name, item⟩ := entry
      cases item with
      | file content =>
          rw [foundIn, ih]
          rfl
      | directory sub =>
          rw [foundIn, ih]
          rfl

/-- What a search finds below a directory are the paths of the files that it gets to. -/
theorem mem_foundIn_iff
    {s : Search} {listing : List (String × Item)} {path p : String}
    (hlisting : (Item.directory listing).WellFormed)
    (hpath : isListable path = true) :
    p ∈ s.foundIn path listing ↔
      ∃ dirs name, s.Reaches path (.directory listing) dirs name ∧
        p = (dirs ++ [name]).foldl Path.join path := by
  induction listing using Item.listing_induction generalizing path with
  | step listing ih =>
      rw [foundIn_eq_flatMap, List.mem_flatMap]
      constructor
      · rintro ⟨⟨name, item⟩, hentry, hp⟩
        have hfind := hlisting.find_iff.2 hentry
        cases item with
        | file content =>
            rw [foundOf, List.mem_ite_nil_right, List.mem_singleton] at hp
            exact ⟨[], name, reaches_nil_iff.2 ⟨⟨content, hfind⟩, hp.1, hpath⟩, hp.2⟩
        | directory sub =>
            rw [foundOf, List.mem_ite_nil_right, Bool.and_eq_true] at hp
            obtain ⟨⟨henters, hlistable⟩, hp⟩ := hp
            obtain ⟨dirs, last, hreaches, rfl⟩ :=
              (ih name sub hentry (hlisting.of_find hfind) hlistable).1 hp
            exact ⟨name :: dirs, last,
              reaches_cons_iff.2 ⟨sub, hfind, henters, hlistable, hreaches⟩, rfl⟩
      · rintro ⟨dirs, name, hreaches, rfl⟩
        cases dirs with
        | nil =>
            obtain ⟨⟨content, hfind⟩, hwants, -⟩ := reaches_nil_iff.1 hreaches
            refine ⟨_, hlisting.find_iff.1 hfind, ?_⟩
            rw [foundOf, if_pos hwants]
            exact List.mem_singleton_self _
        | cons dir dirs =>
            obtain ⟨sub, hfind, henters, hlistable, hreaches⟩ := reaches_cons_iff.1 hreaches
            have hentry := hlisting.find_iff.1 hfind
            refine ⟨_, hentry, ?_⟩
            rw [foundOf, if_pos (by rw [henters, hlistable]; rfl)]
            exact (ih dir sub hentry (hlisting.of_find hfind) hlistable).2
              ⟨dirs, name, hreaches, rfl⟩

/-- The names of what a search gets to are proper. -/
theorem Reaches.properName
    {s : Search} {path name : String} {item : Item} {dirs : List String}
    (h : s.Reaches path item dirs name)
    (hitem : item.WellFormed) :
    ∀ n ∈ dirs ++ [name], ProperName n := by
  obtain ⟨content, hcontent⟩ := h.file
  exact hitem.properName hcontent

/-- The path of what is found in an entry goes on with the name of the entry. -/
theorem exists_names_of_mem_foundOf
    {s : Search} {listing : List (String × Item)} {path p : String}
    {entry : String × Item}
    (hlisting : (Item.directory listing).WellFormed)
    (hentry : entry ∈ listing)
    (hp : p ∈ s.foundOf path entry) :
    ∃ more : List String,
      (∀ n ∈ entry.1 :: more, ProperName n) ∧ p = (entry.1 :: more).foldl Path.join path := by
  obtain ⟨name, item⟩ := entry
  have hname : ProperName name := hlisting.properName_of_mem hentry
  have hitem : item.WellFormed := hlisting.of_find (hlisting.find_iff.2 hentry)
  cases item with
  | file content =>
      rw [foundOf, List.mem_ite_nil_right, List.mem_singleton] at hp
      exact ⟨[], by simpa using hname, hp.2⟩
  | directory sub =>
      rw [foundOf, List.mem_ite_nil_right, Bool.and_eq_true] at hp
      obtain ⟨⟨-, hlistable⟩, hp⟩ := hp
      obtain ⟨dirs, last, hreaches, rfl⟩ := (mem_foundIn_iff hitem hlistable).1 hp
      refine ⟨dirs ++ [last], ?_, rfl⟩
      intro n hn
      rcases List.mem_cons.1 hn with rfl | hlater
      · exact hname
      · exact hreaches.properName hitem n hlater

/-- No path is found twice. -/
theorem nodup_foundIn
    {s : Search} {listing : List (String × Item)} {path : String}
    (hlisting : (Item.directory listing).WellFormed) :
    (s.foundIn path listing).Nodup := by
  induction listing using Item.listing_induction generalizing path with
  | step listing ih =>
      rw [foundIn_eq_flatMap, List.nodup_flatMap]
      constructor
      · rintro ⟨name, item⟩ hentry
        cases item with
        | file content =>
            rw [foundOf]
            split
            · exact List.nodup_singleton _
            · exact List.nodup_nil
        | directory sub =>
            have hsub := hlisting.of_find (hlisting.find_iff.2 hentry)
            rw [foundOf]
            split
            · exact ih name sub hentry hsub
            · exact List.nodup_nil
      · have hnames := List.pairwise_map.1 hlisting.nodup_names
        apply hnames.imp_of_mem
        intro entry entry' hentry hentry' hne p hp hp'
        obtain ⟨more, hproper, hpath⟩ := exists_names_of_mem_foundOf hlisting hentry hp
        obtain ⟨more', hproper', hpath'⟩ := exists_names_of_mem_foundOf hlisting hentry' hp'
        have hsame := Path.foldl_join_injective hproper hproper' (List.cons_ne_nil _ _)
          (List.cons_ne_nil _ _) (hpath.symm.trans hpath')
        exact hne (List.cons.inj hsame).1

end Finding

section Sorting

/-- A path that leads somewhere is short enough to be listed. -/
theorem isListable_of_entryAt
    {here : Entry} {path : String} {item : Item}
    (h : entryAt here path = some item) :
    isListable path = true := by
  obtain ⟨-, e, hfollow, -⟩ := entryAt_eq_some_iff.1 h
  exact isListable_iff.2 (follow_eq_ok_iff.1 hfollow).2.1

theorem wellFormed_of_entryAt
    {here : Entry} {path : String} {item : Item}
    (hroot : here.root.WellFormed)
    (h : entryAt here path = some item) :
    item.WellFormed := by
  obtain ⟨-, e, hfollow, hitem⟩ := entryAt_eq_some_iff.1 h
  rw [root_of_follow hfollow] at hitem
  exact hroot.below hitem

/-- The paths that are found are those of the files that the search gets to. -/
theorem mem_found_iff
    {s : Search} {here : Entry} {path p : String}
    (hroot : here.root.WellFormed) :
    p ∈ s.found here path ↔
      ∃ item dirs name, entryAt here path = some item ∧ s.Reaches path item dirs name ∧
        p = (dirs ++ [name]).foldl Path.join path := by
  unfold found
  cases hentry : entryAt here path with
  | none =>
      simp
  | some item =>
      have hitem := wellFormed_of_entryAt hroot hentry
      simp only [List.mem_mergeSort, Option.some.injEq, exists_and_left, exists_eq_left']
      cases item with
      | file content =>
          rw [foundAt]
          constructor
          · nofun
          · rintro ⟨dirs, name, hreaches, -⟩
            obtain ⟨found, hfound⟩ := hreaches.file
            cases dirs <;> cases hfound
      | directory listing =>
          rw [foundAt]
          exact mem_foundIn_iff hitem (isListable_of_entryAt hentry)

theorem nodup_found
    {s : Search} {here : Entry} {path : String}
    (hroot : here.root.WellFormed) :
    (s.found here path).Nodup := by
  unfold found
  cases hentry : entryAt here path with
  | none =>
      exact List.nodup_nil
  | some item =>
      rw [(List.mergeSort_perm _ _).nodup_iff]
      have hitem := wellFormed_of_entryAt hroot hentry
      cases item with
      | file content =>
          rw [foundAt]
          exact List.nodup_nil
      | directory listing =>
          rw [foundAt]
          exact nodup_foundIn hitem

theorem pairwise_found
    (s : Search)
    (here : Entry)
    (path : String) :
    (s.found here path).Pairwise fun p q => p ≤ q := by
  unfold found
  cases entryAt here path with
  | none =>
      exact .nil
  | some item =>
      have htrans : ∀ p q r : String,
          decide (p ≤ q) = true → decide (q ≤ r) = true → decide (p ≤ r) = true := by
        simpa using fun _ _ _ => String.le_trans
      have htotal : ∀ p q : String, (decide (p ≤ q) || decide (q ≤ p)) = true := by
        simpa using String.le_total
      exact (List.pairwise_mergeSort htrans htotal (s.foundAt path item)).imp
        of_decide_eq_true

end Sorting

section Orders

/-- Where a tree holds the same files, the same path is found. -/
theorem mem_found_of_sameFiles
    {s : Search} {here : Entry} {root' : Item} {path p : String}
    (hroot : here.root.WellFormed)
    (hroot' : root'.WellFormed)
    (hsame : here.root.SameFiles root')
    (hp : p ∈ s.found here path) :
    p ∈ s.found ⟨root', here.names⟩ path := by
  obtain ⟨item, dirs, name, hentry, hreaches, rfl⟩ := (mem_found_iff hroot).1 hp
  obtain ⟨hnull, e, hfollow, hitem⟩ := entryAt_eq_some_iff.1 hentry
  obtain ⟨content, hcontent⟩ := hreaches.file
  have hshown : root'.shownAt (e.names ++ (dirs ++ [name])) = some (some content) := by
    rw [hsame, Item.shownAt_eq_file_iff, Item.get?_append, ← root_of_follow hfollow, hitem]
    exact hcontent
  rw [Item.shownAt_eq_file_iff, Item.get?_append, Option.bind_eq_some_iff] at hshown
  obtain ⟨item', hitem', hcontent'⟩ := hshown
  refine (mem_found_iff hroot').2 ⟨item', dirs, name, ?_, ?_, rfl⟩
  · exact entryAt_eq_some_iff.2 ⟨hnull, _, follow_of_keeps hsame.keeps hfollow, hitem'⟩
  · exact ⟨⟨content, hcontent'⟩, hreaches.wanted, hreaches.entered, hreaches.short⟩

/-- What is found does not hang on the order in which directories are listed. -/
theorem found_eq_of_sameFiles
    {s : Search} {here : Entry} {root' : Item} {path : String}
    (hroot : here.root.WellFormed)
    (hroot' : root'.WellFormed)
    (hsame : here.root.SameFiles root') :
    s.found ⟨root', here.names⟩ path = s.found here path := by
  have hmembers : ∀ p, p ∈ s.found ⟨root', here.names⟩ path ↔ p ∈ s.found here path := by
    intro p
    constructor
    · exact mem_found_of_sameFiles hroot' hroot hsame.symm
    · exact mem_found_of_sameFiles hroot hroot' hsame
  have hperm := (List.perm_ext_iff_of_nodup (nodup_found hroot') (nodup_found hroot)).2 hmembers
  refine List.Perm.eq_of_pairwise ?_ (pairwise_found s _ path) (pairwise_found s _ path) hperm
  intro p q _ _
  exact String.le_antisymm

/-- Paths that are found are in the order of code points, each greater than those
before. -/
theorem pairwise_inCodeOrder_found
    {s : Search} {here : Entry} {path : String}
    (hroot : here.root.WellFormed) :
    (s.found here path).Pairwise fun p q => p ≠ q ∧ InCodeOrder p q :=
  (nodup_found hroot).and ((pairwise_found s here path).imp le_iff_inCodeOrder.1)

end Orders

section Checks

/-- A path that is found has a wanted extension, and it leads to a file if it is not too
long. -/
theorem checks_of_mem_found
    {s : Search} {here : Entry} {path p : String}
    (hroot : here.root.WellFormed)
    (hp : p ∈ s.found here path) :
    s.extensions.contains (Path.extension p) = true ∧
      (isFile here p = true ↔ (octetsOf p).length < pathLimit) := by
  obtain ⟨item, dirs, name, hentry, hreaches, rfl⟩ := (mem_found_iff hroot).1 hp
  obtain ⟨content, hcontent⟩ := hreaches.file
  have hnames := hreaches.properName (wellFormed_of_entryAt hroot hentry)
  constructor
  · rw [Path.extension_foldl_join hnames, List.contains_iff_mem]
    exact hreaches.wanted
  · rw [isFile, entryAt_foldl_join hentry hnames (by simp) hcontent]
    by_cases hshort : (octetsOf ((dirs ++ [name]).foldl Path.join path)).length < pathLimit
    · rw [if_pos hshort]
      exact iff_of_true rfl hshort
    · rw [if_neg hshort]
      exact iff_of_false Bool.false_ne_true hshort

end Checks

end Search
end Files
end HaskellTags
