import HaskellTags.Proofs.Files.Trees
import HaskellTags.Proofs.Journal
import HaskellTags.Proofs.Text.Rows

/-!
# Writing a file

A path is followed in the tree, part by part, and its names are also taken by
themselves, upwards and downwards, to find the directories that have to be made.
Without links both lead to the same names: `names_of_foldlM_step`.

`written_of_write` tells what a write that went well has done.  The tree shows
the new content at the names of the path, directories on the way to them where
there was nothing, and all else as before; and the path is read as the content.
-/

namespace HaskellTags
namespace Files

open Text

section Steps

/-- What a step along a path needs, and where it leads. -/
theorem step_eq_ok_iff
    {e e' : Entry} {part : String} :
    e.step part = .ok e' ↔
      e.root.HasDirectory e.names ∧
        ((Path.isName part = false ∧ e' = e) ∨
          (Path.isName part = true ∧ part = ".." ∧ e' = e.up) ∨
          (Path.isName part = true ∧ part ≠ ".." ∧ isTooLong part = false ∧
            e.root.shownAt (e.names ++ [part]) ≠ none ∧ e' = e.down part)) := by
  rw [Item.hasDirectory_iff]
  unfold Entry.step Entry.item?
  cases hitem : e.root.get? e.names with
  | none =>
      simp
  | some item =>
      cases item with
      | file content =>
          simp
      | directory listing =>
          rw [Item.shownAt_concat hitem]
          cases hname : Path.isName part with
          | false =>
              simp [@eq_comm _ e' e]
          | true =>
              by_cases hup : part = ".."
              · simp [hup, @eq_comm _ e' e.up]
              · cases hlong : isTooLong part with
                | true =>
                    simp [hup]
                | false =>
                    cases hfind : Item.find listing part with
                    | none =>
                        simp [hup, hfind]
                    | some item =>
                        simp [hup, hfind, @eq_comm _ e' (e.down part)]

/-- The names after one more part of a path. -/
def goAlong (names : List String) (part : String) : List String :=
  if Path.isName part then Path.goTo names part else names

theorem foldl_goAlong
    (names : List String)
    (parts : List String) :
    parts.foldl goAlong names = (parts.filter Path.isName).foldl Path.goTo names := by
  rw [List.foldl_filter]
  rfl

theorem names_of_step
    {e e' : Entry} {part : String}
    (h : e.step part = .ok e') :
    e' = ⟨e.root, goAlong e.names part⟩ := by
  obtain ⟨-, ⟨hname, rfl⟩ | ⟨hname, hup, rfl⟩ | ⟨hname, hup, -, -, rfl⟩⟩ := step_eq_ok_iff.1 h
  · rw [goAlong, if_neg (by simp [hname])]
  · rw [goAlong, if_pos hname, Path.goTo, if_pos hup]
    rfl
  · rw [goAlong, if_pos hname, Path.goTo, if_neg hup]
    rfl

/-- The names that a followed path leads to are those that it is made of. -/
theorem names_of_foldlM_step
    {e e' : Entry} {parts : List String}
    (h : parts.foldlM Entry.step e = .ok e') :
    e' = ⟨e.root, parts.foldl goAlong e.names⟩ := by
  induction parts generalizing e with
  | nil =>
      cases h
      rfl
  | cons part parts ih =>
      rw [List.foldlM_cons, Outcome.bind_eq_ok_iff] at h
      obtain ⟨next, hstep, hrest⟩ := h
      rw [ih hrest, names_of_step hstep]
      rfl

/-- Every directory is still there, and so is whatever was anywhere. -/
structure Keeps (root after : Item) : Prop where
  directories : ∀ names, root.HasDirectory names → after.HasDirectory names
  items : ∀ names, root.shownAt names ≠ none → after.shownAt names ≠ none

theorem step_of_keeps
    {root after : Item} {names names' : List String} {part : String}
    (hkeeps : Keeps root after)
    (h : Entry.step ⟨root, names⟩ part = .ok ⟨root, names'⟩) :
    Entry.step ⟨after, names⟩ part = .ok ⟨after, names'⟩ := by
  rw [step_eq_ok_iff] at h ⊢
  obtain ⟨hdirectory, hcases⟩ := h
  refine ⟨hkeeps.directories _ hdirectory, ?_⟩
  rcases hcases with ⟨hname, heq⟩ | ⟨hname, hup, heq⟩ | ⟨hname, hup, hlong, hitem, heq⟩
  · cases heq
    exact .inl ⟨hname, rfl⟩
  · cases heq
    exact .inr (.inl ⟨hname, hup, rfl⟩)
  · cases heq
    exact .inr (.inr ⟨hname, hup, hlong, hkeeps.items _ hitem, rfl⟩)

theorem foldlM_step_of_keeps
    {root after : Item} {names names' : List String} {parts : List String}
    (hkeeps : Keeps root after)
    (h : parts.foldlM Entry.step ⟨root, names⟩ = .ok ⟨root, names'⟩) :
    parts.foldlM Entry.step ⟨after, names⟩ = .ok ⟨after, names'⟩ := by
  induction parts generalizing names with
  | nil =>
      cases h
      rfl
  | cons part parts ih =>
      rw [List.foldlM_cons, Outcome.bind_eq_ok_iff] at h ⊢
      obtain ⟨⟨root', between⟩, hstep, hrest⟩ := h
      cases names_of_step hstep
      exact ⟨_, step_of_keeps hkeeps hstep, ih hrest⟩

end Steps

section Directories

/-- A tree in which directories were made along some names, where there was
nothing, and nothing else was done. -/
def Grown (root after : Item) (along : List String) : Prop :=
  ∀ names,
    after.shownAt names =
      if names <+: along ∧ root.shownAt names = none then some none
      else root.shownAt names

theorem grown_refl
    {root : Item} {along : List String}
    (h : root.shownAt along ≠ none) :
    Grown root root along := by
  intro names
  by_cases hnone : names <+: along ∧ root.shownAt names = none
  · obtain ⟨⟨more, rfl⟩, hnone⟩ := hnone
    by_cases hmore : more = []
    · rw [hmore, List.append_nil] at h
      exact absurd hnone h
    · apply absurd _ h
      apply Item.shownAt_append_of_not_hasDirectory _ hmore
      rw [Item.HasDirectory, hnone]
      nofun
  · rw [if_neg hnone]

/-- One step of making directories that went well: the directory is there or it
was made, and the others follow below it. -/
theorem makeDirectories_cons
    {workingDirectory : String} {here : Entry} {passed names : List String} {name : String}
    {made : Changed}
    (hmade : makeDirectories workingDirectory here passed (name :: names) = made)
    (hok : made.outcome = .ok ()) :
    here.root.HasDirectory passed ∧
      ((here.root.shownAt (passed ++ [name]) ≠ none ∧
          makeDirectories workingDirectory here (passed ++ [name]) names = made) ∨
        (here.root.shownAt (passed ++ [name]) = none ∧
          makeDirectories workingDirectory
            { here with root := here.root.put (passed ++ [name]) .empty }
            (passed ++ [name]) names = made)) := by
  rw [makeDirectories] at hmade
  simp only at hmade
  split at hmade
  · rw [← hmade] at hok
    cases hok
  split at hmade
  · rw [← hmade] at hok
    cases hok
  split at hmade
  · next listing hitem =>
    rw [Item.shownAt_concat hitem]
    refine ⟨Item.hasDirectory_iff.2 ⟨listing, hitem⟩, ?_⟩
    split at hmade
    · rw [← hmade] at hok
      cases hok
    split at hmade
    · next hfind =>
      rw [hfind]
      exact .inl ⟨nofun, hmade⟩
    · next hfind =>
      rw [hfind]
      split at hmade
      · rw [← hmade] at hok
        cases hok
      · exact .inl ⟨nofun, hmade⟩
    · next hfind =>
      rw [hfind]
      exact .inr ⟨rfl, hmade⟩
  · rw [← hmade] at hok
    cases hok

/-- Directories that were all made, or were there, have made the tree grow along
their names. -/
theorem grown_of_makeDirectories
    {workingDirectory : String} {here : Entry} {passed names : List String} {made : Changed}
    (hpassed : here.root.shownAt passed ≠ none)
    (hmade : makeDirectories workingDirectory here passed names = made)
    (hok : made.outcome = .ok ()) :
    made.files.names = here.names ∧
      Grown here.root made.files.root (passed ++ names) := by
  induction names generalizing here passed with
  | nil =>
      rw [← hmade, List.append_nil]
      exact ⟨rfl, grown_refl hpassed⟩
  | cons name names ih =>
      have hpath : passed ++ name :: names = passed ++ [name] ++ names := by simp
      rw [hpath]
      obtain ⟨hparent, ⟨hsome, hrest⟩ | ⟨hnone, hrest⟩⟩ := makeDirectories_cons hmade hok
      · exact ih hsome hrest
      · have hfree : ¬ here.root.HasDirectory (passed ++ [name]) := by
          rw [Item.HasDirectory, hnone]
          nofun
        have hput := Item.shownAt_put_leaf hparent hfree (fun _ => Item.shownAt_empty)
        obtain ⟨hnames, hgrown⟩ := ih (by rw [hput, if_pos rfl]; nofun) hrest
        refine ⟨hnames, ?_⟩
        intro seen
        rw [hgrown seen, hput]
        by_cases hseen : seen = passed ++ [name]
        · have hstart : passed ++ [name] <+: passed ++ [name] ++ names :=
            List.prefix_append _ _
          rw [if_pos hseen, hseen, if_neg (by simp), if_pos ⟨hstart, hnone⟩]
          rfl
        · rw [if_neg hseen]

end Directories

section Targets

theorem exists_splitWhen_concat
    {separates : Char → Bool} {c : Char}
    (hc : separates c = false)
    (cs : List Char) :
    ∃ (parts : List (List Char)) (part : List Char),
      splitWhen separates (cs ++ [c]) = parts ++ [part ++ [c]] := by
  induction cs with
  | nil =>
      exact ⟨[], [], by simp [splitWhen, hc]⟩
  | cons d cs ih =>
      obtain ⟨parts, part, hparts⟩ := ih
      cases hd : separates d with
      | true =>
          refine ⟨[] :: parts, part, ?_⟩
          simp [splitWhen, hd, hparts]
      | false =>
          cases parts with
          | nil =>
              refine ⟨[], d :: part, ?_⟩
              simp only [List.nil_append] at hparts
              simp [splitWhen, hd, hparts]
          | cons first parts =>
              refine ⟨(d :: first) :: parts, part, ?_⟩
              simp only [List.cons_append] at hparts
              simp [splitWhen, hd, hparts]

/-- The last part of a path that does not end in a slash is not empty. -/
theorem exists_parts_concat
    {path : String}
    (hne : path.isEmpty = false)
    (hslash : endsInSlash path = false) :
    ∃ (parts : List String) (last : String),
      Path.parts path = parts ++ [last] ∧ last.isEmpty = false := by
  have hchars : path.toList ≠ [] := by
    simpa [String.isEmpty_eq_false_iff] using hne
  obtain ⟨cs, c, hcs⟩ := (List.eq_nil_or_concat' path.toList).resolve_left hchars
  have hc : (c == '/') = false := by
    rw [endsInSlash, hcs, List.getLast?_concat] at hslash
    simpa using hslash
  obtain ⟨parts, part, hparts⟩ := @exists_splitWhen_concat (· == '/') c hc cs
  refine ⟨parts.map String.ofList, String.ofList (part ++ [c]), ?_, ?_⟩
  · rw [Path.parts, splitText, hcs, hparts, List.map_append]
    rfl
  · simp [String.isEmpty_eq_false_iff]

theorem splitTarget_of_parts
    {path : String} {parts : List String} {last : String}
    (hparts : Path.parts path = parts ++ [last])
    (hlast : last.isEmpty = false) :
    splitTarget path = (parts, some last) := by
  have hdrop :
      (Path.parts path).reverse.dropWhile String.isEmpty = (Path.parts path).reverse := by
    rw [hparts, List.reverse_append]
    exact List.dropWhile_cons_of_neg (by simp [hlast])
  rw [splitTarget, hdrop, List.reverse_reverse, hparts]
  simp

/-- A path whose parts lead to a place for a file: before the last part to a
directory, and with it to no directory. -/
structure Target (here : Entry) (path : String) (before : List String)
    (parent : List String) (name : String) : Prop where
  nonempty : path.isEmpty = false
  short : ¬ pathLimit ≤ (octetsOf path).length
  parts_eq : Path.parts path = before ++ [name]
  follows : before.foldlM Entry.step (startOf here path) = .ok ⟨here.root, parent⟩
  directory : here.root.HasDirectory parent
  isName : Path.isName name = true
  not_up : name ≠ ".."
  not_long : isTooLong name = false
  free : ¬ here.root.HasDirectory (parent ++ [name])

theorem startOf_root
    (here : Entry)
    (path : String) :
    (startOf here path).root = here.root := by
  unfold startOf
  split <;> rfl

theorem target_of_targetOf
    {here target : Entry} {path : String}
    (h : targetOf here path = .ok target) :
    ∃ (before parent : List String) (name : String),
      Target here path before parent name ∧ target.names = parent ++ [name] := by
  unfold targetOf at h
  split at h
  · cases h
  next hne =>
  split at h
  · cases h
  next hshort =>
  cases hsplit : splitTarget path with
  | mk before last =>
      simp only [hsplit] at h
      cases hfollow : before.foldlM Entry.step (startOf here path) with
      | error code =>
          simp only [hfollow] at h
          cases h
      | ok parent =>
          simp only [hfollow] at h
          have hparent := names_of_foldlM_step hfollow
          rw [startOf_root] at hparent
          split at h
          · cases h
          · cases h
          · cases h
          next listing name hitem =>
          split at h
          · cases h
          next hplain =>
          split at h
          · cases h
          next hlong =>
          split at h
          · cases h
          next hfind =>
          simp only [Bool.or_eq_true, Bool.not_eq_true', decide_eq_true_eq, not_or,
            Bool.not_eq_false, Bool.not_eq_true] at hplain
          obtain ⟨⟨hname, hup⟩, hslash⟩ := hplain
          obtain ⟨parts, last, hparts, hlast⟩ :=
            exists_parts_concat (Bool.not_eq_true _ ▸ hne) hslash
          have hboth := splitTarget_of_parts hparts hlast
          rw [hsplit] at hboth
          cases hboth
          cases h
          rw [hparent] at hfollow hitem ⊢
          have hdirectory := Item.hasDirectory_iff.2 ⟨listing, hitem⟩
          refine ⟨before, _, name, ⟨Bool.not_eq_true _ ▸ hne, hshort, hparts, hfollow, hdirectory,
            hname, hup, Bool.not_eq_true _ ▸ hlong, ?_⟩, rfl⟩
          rw [Item.HasDirectory, Item.shownAt_concat hitem]
          intro hshown
          obtain ⟨item, hfound, hnone⟩ := Option.map_eq_some_iff.1 hshown
          cases item with
          | file content =>
              cases hnone
          | directory inner =>
              exact hfind inner hfound

/-- The names that a path is made of are those of the file that it would write. -/
theorem Target.namesOf_eq
    {here : Entry} {path : String} {before parent : List String} {name : String}
    (h : Target here path before parent name) :
    namesOf here path = parent ++ [name] := by
  have hparent : parent = before.foldl goAlong (startOf here path).names :=
    congrArg Entry.names (names_of_foldlM_step h.follows)
  rw [namesOf, Path.names, ← foldl_goAlong, h.parts_eq, List.foldl_append, ← hparent]
  simp [goAlong, h.isName, Path.goTo, h.not_up]

end Targets

section Written

variable {here : Entry} {path : String} {before parent : List String} {name : String}

/-- A tree in which a file was written: it shows the content at the names of the
file, directories on the way to them where there was nothing, and all else as
before. -/
def Written (root after : Item) (target : List String) (content : Octets) : Prop :=
  ∀ names,
    after.shownAt names =
      if names = target then some (some content)
      else if names <+: target ∧ root.shownAt names = none then some none
      else root.shownAt names

/-- What is seen after a file was put at a target. -/
theorem Target.shownAt_put
    (h : Target here path before parent name)
    (content : Octets)
    (names : List String) :
    (here.root.put (parent ++ [name]) (.file content)).shownAt names =
      if names = parent ++ [name] then some (some content) else here.root.shownAt names := by
  apply Item.shownAt_put_leaf h.directory h.free
  intro more hmore
  obtain ⟨n, more, rfl⟩ := List.exists_cons_of_ne_nil hmore
  rfl

theorem Target.keeps_put
    (h : Target here path before parent name)
    (content : Octets) :
    Keeps here.root (here.root.put (parent ++ [name]) (.file content)) := by
  constructor
  · intro names hdirectory
    have hne : names ≠ parent ++ [name] := by
      rintro rfl
      exact h.free hdirectory
    rw [Item.HasDirectory, h.shownAt_put, if_neg hne]
    exact hdirectory
  · intro names hitem
    rw [h.shownAt_put]
    split
    · nofun
    · exact hitem

theorem namesOf_of_names_eq
    {e : Entry}
    (hnames : e.names = here.names) :
    namesOf e path = namesOf here path := by
  unfold namesOf startOf
  split
  · rfl
  · rw [hnames]

theorem startOf_with_root
    (here : Entry)
    (root : Item)
    (path : String) :
    startOf ⟨root, here.names⟩ path = ⟨root, (startOf here path).names⟩ := by
  unfold startOf
  split <;> rfl

/-- The file that was put at a target is read through the path. -/
theorem Target.read_put
    (h : Target here path before parent name)
    (hnull : holdsNull path = false)
    (content : Octets) :
    read ⟨here.root.put (parent ++ [name]) (.file content), here.names⟩ path =
      .ok content := by
  generalize hafter : here.root.put (parent ++ [name]) (.file content) = after
  have hkeeps : Keeps here.root after := hafter ▸ h.keeps_put content
  have hshown : after.shownAt (parent ++ [name]) = some (some content) := by
    rw [← hafter, h.shownAt_put, if_pos rfl]
  have hstart : startOf here path = ⟨here.root, (startOf here path).names⟩ := by
    rw [← startOf_root here path]
  have hbefore :
      before.foldlM Entry.step ⟨after, (startOf here path).names⟩ = .ok ⟨after, parent⟩ :=
    foldlM_step_of_keeps hkeeps (hstart ▸ h.follows)
  have hlast : Entry.step ⟨after, parent⟩ name = .ok ⟨after, parent ++ [name]⟩ := by
    refine step_eq_ok_iff.2 ⟨hkeeps.directories _ h.directory, .inr (.inr ?_)⟩
    exact ⟨h.isName, h.not_up, h.not_long, by simp [hshown], rfl⟩
  have hfollow :
      follow ⟨after, here.names⟩ path = .ok ⟨after, parent ++ [name]⟩ := by
    rw [follow, if_neg (by simp [h.nonempty]), if_neg h.short, startOf_with_root,
      h.parts_eq, List.foldlM_append, hbefore, Outcome.ok_bind, List.foldlM_cons, hlast]
    rfl
  have hitem : after.get? (parent ++ [name]) = some (.file content) := by
    obtain ⟨item, hitem, hcontent⟩ := Option.map_eq_some_iff.1 hshown
    cases item with
    | file found =>
        cases hcontent
        exact hitem
    | directory listing =>
        cases hcontent
  rw [read, hnull, if_neg (by simp), hfollow]
  simp only [Entry.item?, hitem]

/-- Making the directories on the way and putting the file is writing it. -/
theorem Target.written
    {root : Item}
    (h : Target here path before parent name)
    (hgrown : Grown root here.root parent)
    (content : Octets) :
    Written root (here.root.put (parent ++ [name]) (.file content)) (parent ++ [name])
      content := by
  intro names
  rw [h.shownAt_put]
  by_cases hnames : names = parent ++ [name]
  · rw [if_pos hnames, if_pos hnames]
  · have hstart : names <+: parent ++ [name] ↔ names <+: parent := by
      simp [List.prefix_concat_iff, hnames]
    rw [if_neg hnames, if_neg hnames, hgrown names]
    simp only [hstart]

/-- What a write that went well has done. -/
theorem written_of_write
    {workingDirectory : String} {content : Octets} {changed : Changed}
    (hwrite : write workingDirectory here path content = changed)
    (hok : changed.outcome = .ok ()) :
    changed.files.names = here.names ∧
      Written here.root changed.files.root (namesOf here path) content ∧
      read changed.files path = .ok content := by
  unfold write at hwrite
  split at hwrite
  · rw [← hwrite] at hok
    cases hok
  generalize hmade :
    makeDirectories workingDirectory here [] (namesOf here path).dropLast = made at hwrite
  simp only at hwrite
  split at hwrite
  · rw [← hwrite] at hok
    cases hok
  next hmadeOk =>
  have hroot : here.root.shownAt [] ≠ none := nofun
  obtain ⟨hnames, hgrown⟩ := grown_of_makeDirectories hroot hmade hmadeOk
  unfold writeFile at hwrite
  split at hwrite
  · rw [← hwrite] at hok
    cases hok
  next hnull =>
  split at hwrite
  · rw [← hwrite] at hok
    cases hok
  next target htarget =>
  obtain ⟨before, parent, name, h, htargetNames⟩ := target_of_targetOf htarget
  have hpath : namesOf here path = parent ++ [name] := by
    rw [← h.namesOf_eq, namesOf_of_names_eq hnames]
  rw [hpath, List.dropLast_concat, List.nil_append] at hgrown
  rw [← hwrite, htargetNames, hpath]
  exact ⟨hnames, h.written hgrown content, h.read_put (Bool.not_eq_true _ ▸ hnull) content⟩

/-- Whether a file can be written does not depend on what is to be written. -/
theorem outcome_write
    (workingDirectory : String)
    (here : Entry)
    (path : String)
    (content other : Octets) :
    (write workingDirectory here path content).outcome =
      (write workingDirectory here path other).outcome := by
  simp only [write]
  split
  · rfl
  split
  · rfl
  simp only [writeFile]
  split
  · rfl
  split
  · rfl
  · rfl

end Written

end Files
end HaskellTags
