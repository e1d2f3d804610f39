import HaskellTags.Proofs.Files.Writing

/-!
# Paths of entries below a directory

The path of an entry is that of its directory with the entry's name joined to it.
Joining proper names and taking a path apart again undo each other: `parts_foldl_join`.
So paths with different names below one directory are different texts, the last name
alone decides the extension, and a path that is not too long leads to the very item
that its names lead to: `entryAt_foldl_join`.
-/

namespace HaskellTags
namespace Files

open Text

/-- What can stand in a listing as the name of an entry. -/
structure ProperName (name : String) : Prop where
  isName : Path.isName name = true
  not_up : name ≠ ".."
  slash_not_mem : '/' ∉ name.toList
  null_not_mem : '\x00' ∉ name.toList
  not_long : isTooLong name = false

theorem properName_iff
    {name : String} :
    ProperName name ↔
      Path.isName name = true ∧ name ≠ ".." ∧ '/' ∉ name.toList ∧ '\x00' ∉ name.toList ∧
        isTooLong name = false :=
  ⟨fun h => ⟨h.isName, h.not_up, h.slash_not_mem, h.null_not_mem, h.not_long⟩,
    fun ⟨h₁, h₂, h₃, h₄, h₅⟩ => ⟨h₁, h₂, h₃, h₄, h₅⟩⟩

instance (name : String) : Decidable (ProperName name) :=
  decidable_of_iff _ properName_iff.symm

theorem ProperName.toList_ne_nil
    {name : String}
    (h : ProperName name) :
    name.toList ≠ [] := by
  have hname := h.isName
  intro hnil
  rw [String.toList_eq_nil_iff] at hnil
  subst hnil
  simp [Path.isName] at hname

namespace Path

section Joining

/-- The parts of a path that stand before the name of an entry below it. -/
def before (path : String) : List String :=
  if path.isEmpty || path.toList.getLast? = some '/' then (parts path).dropLast
  else parts path

theorem parts_of_not_mem
    {name : String}
    (h : '/' ∉ name.toList) :
    parts name = [name] :=
  splitText_of_not_mem h

theorem parts_append_slash
    (path rest : String) :
    parts (path ++ "/" ++ rest) = parts path ++ parts rest := by
  rw [String.append_assoc]
  exact splitText_append_separator '/' path rest

/-- A path that ends in a slash is a path and the slash. -/
theorem exists_eq_append_slash
    {path : String}
    (h : path.toList.getLast? = some '/') :
    ∃ start : String, path = start ++ "/" := by
  obtain ⟨cs, hcs⟩ := List.getLast?_eq_some_iff.1 h
  refine ⟨String.ofList cs, String.toList_injective ?_⟩
  simp [hcs]

theorem parts_join
    {name : String}
    (hname : '/' ∉ name.toList)
    (path : String) :
    parts (join path name) = before path ++ [name] := by
  have hparts := parts_of_not_mem hname
  unfold join before
  by_cases hempty : path.isEmpty = true
  · have hnone : parts "" = [""] := parts_of_not_mem List.not_mem_nil
    obtain rfl : path = "" := String.isEmpty_iff.1 hempty
    simpa [hnone] using hparts
  · by_cases hslash : path.toList.getLast? = some '/'
    · obtain ⟨start, rfl⟩ := exists_eq_append_slash hslash
      have hstart : parts (start ++ "/") = parts start ++ [""] := by
        have h := parts_append_slash start ""
        rw [String.append_empty] at h
        exact h
      rw [if_pos (by simp), if_pos (by simp), parts_append_slash, hparts, hstart,
        List.dropLast_concat]
    · rw [if_neg (by simp [hempty, hslash]), if_neg (by simp [hempty, hslash]),
        parts_append_slash, hparts]

/-- A joined path is the path, a slash if there is none at its end, and the name. -/
theorem exists_join_eq_append
    (path name : String) :
    ∃ between : String, join path name = path ++ between ++ name ∧
      (between = "" ∨ between = "/") := by
  unfold join
  split
  · exact ⟨"", by rw [String.append_empty], .inl rfl⟩
  · exact ⟨"/", rfl, .inr rfl⟩

/-- Nothing can be told from a path with a name at its end but that there is a name. -/
theorem before_join
    {name : String}
    (hname : ProperName name)
    (path : String) :
    before (join path name) = before path ++ [name] := by
  obtain ⟨between, hjoin, -⟩ := exists_join_eq_append path name
  obtain ⟨last, hlast⟩ := Option.ne_none_iff_exists'.1
    (mt List.getLast?_eq_none_iff.1 hname.toList_ne_nil)
  have hend : (join path name).toList.getLast? = some last := by
    rw [hjoin, String.toList_append, List.getLast?_append, hlast]
    rfl
  have hslash : last ≠ '/' := by
    rintro rfl
    exact hname.slash_not_mem (List.mem_of_getLast? hlast)
  have hne : (join path name).isEmpty = false := by
    rw [String.isEmpty_eq_false_iff]
    intro hempty
    rw [hempty] at hend
    cases hend
  rw [before, hne, hend, if_neg (by simpa using hslash), parts_join hname.slash_not_mem]

/-- Joining names and taking the path apart undo each other. -/
theorem parts_foldl_join
    {names : List String}
    (hnames : ∀ name ∈ names, ProperName name)
    (hne : names ≠ [])
    (path : String) :
    parts (names.foldl join path) = before path ++ names := by
  induction names generalizing path with
  | nil =>
      exact absurd rfl hne
  | cons name names ih =>
      have hname := hnames name List.mem_cons_self
      cases names with
      | nil =>
          exact parts_join hname.slash_not_mem path
      | cons next names =>
          have hrest : ∀ n ∈ next :: names, ProperName n := by
            intro n hn
            exact hnames n (List.mem_cons_of_mem name hn)
          rw [List.foldl_cons, ih hrest (List.cons_ne_nil _ _), before_join hname,
            List.append_assoc, List.singleton_append]

theorem foldl_join_injective
    {names names' : List String}
    (hnames : ∀ name ∈ names, ProperName name)
    (hnames' : ∀ name ∈ names', ProperName name)
    (hne : names ≠ [])
    (hne' : names' ≠ [])
    {path : String}
    (h : names.foldl join path = names'.foldl join path) :
    names = names' := by
  have hparts := congrArg parts h
  rw [parts_foldl_join hnames hne, parts_foldl_join hnames' hne'] at hparts
  exact List.append_cancel_left hparts

/-- The extension of a path is that of its last name. -/
theorem extension_foldl_join
    {dirs : List String} {name : String}
    (hnames : ∀ n ∈ dirs ++ [name], ProperName n)
    (path : String) :
    extension ((dirs ++ [name]).foldl join path) = extension name := by
  have hslash : '/' ∉ name.toList := (hnames name (by simp)).slash_not_mem
  have hlast :
      (parts ((dirs ++ [name]).foldl join path)).getLast? = (parts name).getLast? := by
    rw [parts_foldl_join hnames (by simp), parts_of_not_mem hslash, ← List.append_assoc]
    simp
  unfold extension
  rw [hlast]

end Joining

section Texts

theorem exists_foldl_join_eq_append
    (names : List String)
    (path : String) :
    ∃ rest : String, names.foldl join path = path ++ rest := by
  induction names generalizing path with
  | nil =>
      exact ⟨"", by simp⟩
  | cons name names ih =>
      obtain ⟨rest, hrest⟩ := ih (join path name)
      obtain ⟨between, hjoin, -⟩ := exists_join_eq_append path name
      refine ⟨between ++ name ++ rest, ?_⟩
      rw [List.foldl_cons, hrest, hjoin]
      simp only [String.append_assoc]

theorem length_octetsOf_le_foldl_join
    (names : List String)
    (path : String) :
    (octetsOf path).length ≤ (octetsOf (names.foldl join path)).length := by
  obtain ⟨rest, hrest⟩ := exists_foldl_join_eq_append names path
  rw [hrest]
  simp [octetsOf]

theorem holdsNull_foldl_join
    {names : List String}
    (hnames : ∀ name ∈ names, ProperName name)
    {path : String}
    (hpath : holdsNull path = false) :
    holdsNull (names.foldl join path) = false := by
  induction names generalizing path with
  | nil =>
      exact hpath
  | cons name names ih =>
      apply ih fun n hn => hnames n (List.mem_cons_of_mem name hn)
      have hname := (hnames name List.mem_cons_self).null_not_mem
      obtain ⟨between, hjoin, hbetween⟩ := exists_join_eq_append path name
      rw [hjoin]
      rcases hbetween with rfl | rfl
      · simp_all [holdsNull]
      · simp_all [holdsNull]

theorem isAbsolute_foldl_join
    {path : String}
    (hpath : path.isEmpty = false)
    (names : List String) :
    isAbsolute (names.foldl join path) = isAbsolute path := by
  obtain ⟨rest, hrest⟩ := exists_foldl_join_eq_append names path
  have hne : path.toList ≠ [] := by
    simpa [String.isEmpty_eq_false_iff] using hpath
  obtain ⟨c, cs, hcs⟩ := List.exists_cons_of_ne_nil hne
  rw [isAbsolute, isAbsolute, hrest, String.toList_append, hcs]
  rfl

end Texts

end Path

section Following

theorem follow_eq_ok_iff
    {here e : Entry} {path : String} :
    follow here path = .ok e ↔
      path.isEmpty = false ∧ (octetsOf path).length < pathLimit ∧
        (Path.parts path).foldlM Entry.step (startOf here path) = .ok e := by
  unfold follow
  cases path.isEmpty with
  | true =>
      simp
  | false =>
      by_cases hlong : pathLimit ≤ (octetsOf path).length
      · simp [hlong, Nat.not_lt.2 hlong]
      · simp [hlong, Nat.lt_of_not_le hlong]

theorem root_of_follow
    {here e : Entry} {path : String}
    (h : follow here path = .ok e) :
    e.root = here.root := by
  obtain ⟨-, -, hsteps⟩ := follow_eq_ok_iff.1 h
  rw [names_of_foldlM_step hsteps]
  exact startOf_root here path

/-- A path leads to the same names in a tree that has kept all that was there. -/
theorem follow_of_keeps
    {here e : Entry} {path : String} {after : Item}
    (hkeeps : Keeps here.root after)
    (h : follow here path = .ok e) :
    follow ⟨after, here.names⟩ path = .ok ⟨after, e.names⟩ := by
  have hroot := root_of_follow h
  rw [follow_eq_ok_iff] at h ⊢
  obtain ⟨hne, hshort, hsteps⟩ := h
  refine ⟨hne, hshort, ?_⟩
  rw [startOf_with_root]
  apply foldlM_step_of_keeps hkeeps
  rw [← startOf_root here path, hsteps, startOf_root, ← hroot]

/-- A path is followed without the slash at its end as well. -/
theorem foldlM_step_before
    {here e : Entry} {path : String}
    (h : follow here path = .ok e) :
    (Path.before path).foldlM Entry.step (startOf here path) = .ok e := by
  obtain ⟨hne, -, hsteps⟩ := follow_eq_ok_iff.1 h
  unfold Path.before
  rw [hne]
  by_cases hslash : path.toList.getLast? = some '/'
  · obtain ⟨start, hstart⟩ := Path.exists_eq_append_slash hslash
    have hparts : Path.parts path = Path.parts start ++ [""] := by
      rw [hstart, ← String.append_empty (s := start ++ "/"), Path.parts_append_slash]
      rfl
    rw [if_pos (by simp [hslash]), hparts, List.dropLast_concat]
    rw [hparts, List.foldlM_append, Outcome.bind_eq_ok_iff] at hsteps
    obtain ⟨e', hbefore, hlast⟩ := hsteps
    rw [List.foldlM_cons, Outcome.bind_eq_ok_iff] at hlast
    obtain ⟨e'', hstep, hend⟩ := hlast
    cases hend
    rw [hbefore, names_of_step hstep]
    rfl
  · rw [if_neg (by simp [hslash])]
    exact hsteps

theorem shownAt_ne_none_of_append
    {root : Item} {names more : List String}
    (h : root.shownAt (names ++ more) ≠ none) :
    root.shownAt names ≠ none := by
  intro hnone
  apply h
  rw [Item.shownAt, Option.map_eq_none_iff] at hnone
  rw [Item.shownAt, Item.get?_append, hnone]
  rfl

/-- Proper names are followed downwards as far as there is something. -/
theorem foldlM_step_down
    {e : Entry} {names : List String}
    (hnames : ∀ name ∈ names, ProperName name)
    (hitem : e.root.shownAt (e.names ++ names) ≠ none) :
    names.foldlM Entry.step e = .ok ⟨e.root, e.names ++ names⟩ := by
  induction names generalizing e with
  | nil =>
      rw [List.append_nil]
      rfl
  | cons name names ih =>
      have hname := hnames name List.mem_cons_self
      have hsplit : e.names ++ name :: names = e.names ++ [name] ++ names := by
        rw [List.append_assoc, List.singleton_append]
      have hdirectory : e.root.HasDirectory e.names :=
        Item.hasDirectory_above (List.prefix_append _ _) (by simp) hitem
      rw [hsplit] at hitem ⊢
      have hstep : e.step name = .ok (e.down name) :=
        step_eq_ok_iff.2 ⟨hdirectory, .inr (.inr ⟨hname.isName, hname.not_up,
          hname.not_long, shownAt_ne_none_of_append hitem, rfl⟩)⟩
      rw [List.foldlM_cons, hstep, Outcome.ok_bind]
      exact ih (fun n hn => hnames n (List.mem_cons_of_mem name hn)) hitem

/-- The path of an entry below a directory is followed to that entry, if it is not too
long. -/
theorem follow_foldl_join
    {here e : Entry} {path : String} {names : List String}
    (hfollow : follow here path = .ok e)
    (hnames : ∀ name ∈ names, ProperName name)
    (hne : names ≠ [])
    (hitem : e.root.shownAt (e.names ++ names) ≠ none) :
    follow here (names.foldl Path.join path) =
      if (octetsOf (names.foldl Path.join path)).length < pathLimit then
        .ok ⟨e.root, e.names ++ names⟩
      else .error .nameTooLong := by
  have hpath := (follow_eq_ok_iff.1 hfollow).1
  have hbefore := foldlM_step_before hfollow
  have hjoined : (names.foldl Path.join path).isEmpty = false := by
    obtain ⟨rest, hrest⟩ := Path.exists_foldl_join_eq_append names path
    rw [String.isEmpty_eq_false_iff] at hpath ⊢
    rw [hrest]
    intro hempty
    exact hpath (String.append_eq_empty_iff.1 hempty).1
  have hstart : startOf here (names.foldl Path.join path) = startOf here path := by
    rw [startOf, startOf, Path.isAbsolute_foldl_join hpath]
  rw [follow, hjoined, hstart, Path.parts_foldl_join hnames hne, List.foldlM_append, hbefore,
    Outcome.ok_bind, foldlM_step_down hnames hitem, if_neg Bool.false_ne_true]
  by_cases hshort : (octetsOf (names.foldl Path.join path)).length < pathLimit
  · rw [if_neg (Nat.not_le.2 hshort), if_pos hshort]
  · rw [if_pos (Nat.not_lt.1 hshort), if_neg hshort]

theorem entryAt_eq_some_iff
    {here : Entry} {path : String} {item : Item} :
    entryAt here path = some item ↔
      holdsNull path = false ∧
        ∃ e, follow here path = .ok e ∧ e.root.get? e.names = some item := by
  unfold entryAt
  cases holdsNull path with
  | true =>
      simp
  | false =>
      simp only [Bool.false_eq_true, if_false, Option.bind_eq_some_iff,
        Outcome.toOption_eq_some_iff, true_and, Entry.item?]

/-- What the path of an entry below a directory leads to: the entry, unless the path is
too long. -/
theorem entryAt_foldl_join
    {here : Entry} {path : String} {item below : Item} {names : List String}
    (hentry : entryAt here path = some item)
    (hnames : ∀ name ∈ names, ProperName name)
    (hne : names ≠ [])
    (hbelow : item.get? names = some below) :
    entryAt here (names.foldl Path.join path) =
      if (octetsOf (names.foldl Path.join path)).length < pathLimit then some below
      else none := by
  obtain ⟨hnull, e, hfollow, hitem⟩ := entryAt_eq_some_iff.1 hentry
  have hget : e.root.get? (e.names ++ names) = some below := by
    rw [Item.get?_append, hitem]
    exact hbelow
  have hshown : e.root.shownAt (e.names ++ names) ≠ none := by
    simp [Item.shownAt, hget]
  have hjoined := follow_foldl_join hfollow hnames hne hshown
  by_cases hshort : (octetsOf (names.foldl Path.join path)).length < pathLimit
  · rw [if_pos hshort] at hjoined ⊢
    exact entryAt_eq_some_iff.2
      ⟨Path.holdsNull_foldl_join hnames hnull, _, hjoined, hget⟩
  · rw [if_neg hshort] at hjoined ⊢
    rw [entryAt, Path.holdsNull_foldl_join hnames hnull, hjoined]
    rfl

end Following

end Files
end HaskellTags
