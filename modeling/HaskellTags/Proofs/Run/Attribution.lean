import HaskellTags.Proofs.Log.Scopes
import HaskellTags.Proofs.Run.Sweeping

/-!
# Records name the file they are about

While a file is tagged, its scope is open in the session; it is opened after the path and
its extension have been looked at, and closed when the file is done or has failed.  All else
that a sweep reports, the search for files, the failures and the end, is reported outside.

The sweep is written down once more as a computation that opens and closes scopes in a
session, and it is shown to follow the sweep with records.  So each session is left as it
was found, whether the sweep comes to its end or not, and what it logs can be read off the
records: those of tagging a file carry its path, file after file in the order in which the
paths were expanded, and the others carry the source file from outside.
-/

namespace HaskellTags

namespace Log

/-- A record that leaves its file to the scope and is no failure of a sweep. -/
structure Record.IsInner (r : Record) : Prop where
  file_eq : r.file = none
  level_ne : r.component = .sweep → r.level ≠ .error

/-- A record of a sweep about no file, at a level. -/
structure Record.IsOuter (level : Level) (r : Record) : Prop where
  file_eq : r.file = none
  component_eq : r.component = .sweep
  level_eq : r.level = level

end Log

namespace Tag

open Log

/-- A note that is no record, or one about no file. -/
def Note.IsInner (n : Note) : Prop :=
  ∀ r, n.record? = some r → r.IsInner

theorem isInner_log
    {r : Record}
    (hfile : r.file = none)
    (hcomponent : r.component = .tags) :
    (Note.log r).IsInner := by
  intro r' hr'
  cases hr'
  refine ⟨hfile, ?_⟩
  intro hsweep
  rw [hcomponent] at hsweep
  cases hsweep

theorem leaves_ofDeclWith
    (render : Renderer)
    (lines : List String)
    (d : Decl) :
    (ofDeclWith render lines d).Leaves Note.IsInner := by
  cases d with
  | synonym span head =>
      exact Journal.leaves_ofExcept _
  | data span form head constructors =>
      exact Journal.leaves_ofExcept _
  | signature span names type =>
      refine .bind (Journal.leaves_note ?_) fun _ => Journal.leaves_ofExcept _
      intro r hr
      cases hr
  | other span form =>
      exact .bind (Journal.leaves_note (isInner_log rfl rfl)) fun _ => Journal.leaves_pure _
  | loose head =>
      exact Journal.leaves_pure _

theorem leaves_ofDecls
    (render : Renderer)
    (lines : List String)
    (ds : List Decl) :
    (ofDecls render lines ds).Leaves Note.IsInner := by
  induction ds with
  | nil =>
      exact Journal.leaves_pure _
  | cons d ds ih =>
      exact .bind (leaves_ofDeclWith render lines d) fun _ =>
        .bind ih fun _ => Journal.leaves_pure _

theorem leaves_ofOutlineWith
    (render : Renderer)
    (lines : List String)
    (o : Outline) :
    (ofOutlineWith render lines o).Leaves Note.IsInner := by
  cases o with
  | haskell m =>
      exact .bind (Journal.leaves_ofExcept _) fun _ =>
        .bind (Journal.leaves_ofExcept _) fun _ =>
          .bind (leaves_ofDecls render lines m.decls) fun _ =>
            .bind (Journal.leaves_note (isInner_log rfl rfl)) fun _ => Journal.leaves_pure _
  | unsupported form file =>
      exact Journal.leaves_fail _

end Tag

namespace Run

open Log

section Inside

variable {ε : Type}

theorem leaves_report
    {level : Level} {component : Component}
    (h : component = .sweep → level ≠ .error)
    (message : String) :
    (Logged.report level component message : Logged ε Unit).Leaves Record.IsInner :=
  Journal.leaves_note ⟨rfl, h⟩

theorem isInner_of_outline
    (level : Level)
    (message : String) :
    (Record.of level .outline message).IsInner := by
  refine ⟨rfl, ?_⟩
  intro hsweep
  cases hsweep

theorem isInner_of_mem_unreadRecord
    {path : String} {e : Files.Error} {r : Record}
    (h : r ∈ unreadRecord path e) :
    r.IsInner := by
  cases e with
  | nullInPath =>
      cases h
  | refused code refusedPath =>
      simp only [unreadRecord] at h
      split at h
      · rw [List.mem_singleton.1 h]
        exact isInner_of_outline _ _
      · rw [List.mem_singleton.1 h]
        exact isInner_of_outline _ _

theorem isInner_of_mem_records
    {p : Parse} {size : Nat} {r : Record}
    (h : r ∈ p.records size) :
    r.IsInner := by
  simp only [Parse.records, List.mem_append, List.mem_singleton] at h
  rcases h with (rfl | hwarning) | rfl
  · exact isInner_of_outline _ _
  · split at hwarning
    · rw [List.mem_singleton.1 hwarning]
      exact isInner_of_outline _ _
    · cases hwarning
  · exact isInner_of_outline _ _

theorem leaves_parseFile
    (w : World)
    (path : String) :
    (parseFile w path).Leaves Record.IsInner := by
  unfold parseFile
  split
  · exact .bind (Journal.leaves_noteAll fun _ => isInner_of_mem_unreadRecord) fun _ =>
      Journal.leaves_fail _
  · exact .bind (Journal.leaves_noteAll fun _ => isInner_of_mem_records) fun _ =>
      .bind (Journal.leaves_note (isInner_of_outline _ _)) fun _ => Journal.leaves_pure _

theorem leaves_tagsOf
    (lines : List String)
    (outline : Outline) :
    (tagsOf lines outline).Leaves Record.IsInner := by
  intro r hr
  obtain ⟨note, hnote, hrecord⟩ := List.mem_filterMap.1 hr
  exact Tag.leaves_ofOutlineWith (.ofText Text.oneLine) lines outline note hnote r hrecord

/-- All records of tagging a source leave the file to the scope. -/
theorem leaves_tagSource
    (w : World)
    (path : String) :
    (tagSource w path).Leaves Record.IsInner := by
  unfold tagSource
  refine .bind (leaves_parseFile w path) fun parsed => ?_
  have houtline : ∀ r ∈ parsed.parse.outlineRecords ⟨path, parsed.octets⟩, r.IsInner := by
    intro r hr
    obtain ⟨warning, -, rfl⟩ := List.mem_map.1 hr
    exact isInner_of_outline _ _
  dsimp only
  split
  · exact .bind (leaves_report (by decide) _) fun _ =>
      .bind (Journal.leaves_noteAll houtline) fun _ => .bind (leaves_tagsOf _ _) fun _ =>
        .bind (leaves_report (by decide) _) fun _ => Journal.leaves_pure _
  · exact .bind (Journal.leaves_noteAll houtline) fun _ => .bind (leaves_tagsOf _ _) fun _ =>
      .bind (leaves_report (by decide) _) fun _ => Journal.leaves_pure _

end Inside

section Following

/-- Tags a file with one of some extensions; its scope is open while it is read and
tagged. -/
def tagFileIn (w : World) (extensions : List String) (path : String) : Traced Failure Tagged :=
  if !Files.isFile w.files path then .fail (.missing path)
  else if !extensions.contains (Files.Path.extension path) then
    .fail (.notSource path extensions)
  else (Traced.ofLogged (tagSource w path)).inScope path

/-- How a sweep goes on when a file has tags or has failed. -/
def afterFile {ω : Type} (note : Record → ω) (settings : Settings) (path : String)
    (stats : Stats) (goOn : Stats → Journal ω Failure (List Tag × Stats)) :
    Except Failure Tagged → Journal ω Failure (List Tag × Stats)
  | .ok t => do
    let others ← goOn (stats.add t)
    return (t.tags ++ others.1, others.2)
  | .error failure =>
    match failureRecord path failure with
    | none => .fail failure
    | some record => do
      Journal.note (note record)
      if settings.continueOnError then goOn stats.addFailure else .fail failure

/-- A record as a step. -/
def logStep (r : Record) : Step :=
  .log r.toMessage

/-- The record at the end of a sweep. -/
def completionRecord (stats : Stats) : Record :=
  .of .info .sweep ("Tagging complete: " ++ stats.text)

/-- Goes over the files, from some counts on. -/
def sweepFilesIn (w : World) (settings : Settings) :
    Stats → List String → Traced Failure (List Tag × Stats)
  | stats, [] => do
    Journal.note (logStep (completionRecord stats))
    return ([], stats)
  | stats, path :: rest => do
    let result ← (tagFileIn w settings.extensions path).attempt
    afterFile logStep settings path stats (fun stats => sweepFilesIn w settings stats rest) result

/-- The tags of all files below some paths, and the counts. -/
def tagPathsIn (w : World) (settings : Settings) (paths : List String) :
    Traced Failure (List Tag × Stats) := do
  let files ← Traced.ofLogged (expand w settings paths)
  sweepFilesIn w settings {} files

/-- A sweep as a computation that reports. -/
def Sweep.journal (s : Sweep) : Logged Failure (List Tag × Stats) :=
  ⟨s.outcome.map fun _ => (s.tags, s.stats), s.records⟩

variable {w : World} {settings : Settings} {path : String} {t : Tagged} {failure : Failure}
  {record : Record}

theorem sweepFiles_cons_of_ok
    (hfile : (tagFile w settings.extensions path).outcome = .ok t)
    (stats : Stats)
    (rest : List String) :
    sweepFiles w settings none stats (path :: rest) =
      ((sweepFiles w settings none (stats.add t) rest).behind [(path, t.tags)]).after
        (tagFile w settings.extensions path).notes := by
  have hgoing : none.map (· - 1) ≠ some 0 := nofun
  simp only [sweepFiles, hfile, if_neg hgoing]
  rfl

/-- A failure that a sweep does not expect ends it without a record. -/
theorem sweepFiles_cons_of_unexpected
    (hfile : (tagFile w settings.extensions path).outcome = .error failure)
    (hrecord : failureRecord path failure = none)
    (stats : Stats)
    (rest : List String) :
    sweepFiles w settings none stats (path :: rest) =
      ⟨[], stats, (tagFile w settings.extensions path).notes, .error failure⟩ := by
  simp only [sweepFiles, hfile, hrecord]

theorem sweepFiles_cons_of_error
    (hfile : (tagFile w settings.extensions path).outcome = .error failure)
    (hrecord : failureRecord path failure = some record)
    (stats : Stats)
    (rest : List String) :
    sweepFiles w settings none stats (path :: rest) =
      (if settings.continueOnError then sweepFiles w settings none stats.addFailure rest
        else ⟨[], stats.addFailure, [], .error failure⟩).after
          ((tagFile w settings.extensions path).notes ++ [record]) := by
  simp only [sweepFiles, hfile, hrecord]
  split
  · rfl
  · rw [Sweep.after, List.append_nil]

variable (w settings)

/-- A sweep tags the first file and goes on from there. -/
theorem journal_sweepFiles_cons
    (stats : Stats)
    (path : String)
    (rest : List String) :
    (sweepFiles w settings none stats (path :: rest)).journal =
      (tagFile w settings.extensions path).attempt >>=
        afterFile id settings path stats fun stats =>
          (sweepFiles w settings none stats rest).journal := by
  have hattempt :
      ((tagFile w settings.extensions path).attempt :
        Logged Failure (Except Failure Tagged)).outcome =
        .ok (tagFile w settings.extensions path).outcome := rfl
  rw [Journal.bind_of_ok hattempt]
  cases hfile : (tagFile w settings.extensions path).outcome with
  | ok t =>
      rw [sweepFiles_cons_of_ok hfile, afterFile, Journal.notes_bind_pure]
      generalize sweepFiles w settings none (stats.add t) rest = others
      obtain ⟨tagged, counts, records, outcome⟩ := others
      cases outcome <;> rfl
  | error failure =>
      cases hrecord : failureRecord path failure with
      | none =>
          rw [sweepFiles_cons_of_unexpected hfile hrecord]
          simp only [afterFile, hrecord]
          exact congrArg (Journal.mk _) (List.append_nil _).symm
      | some record =>
          rw [sweepFiles_cons_of_error hfile hrecord]
          simp only [afterFile, hrecord]
          cases settings.continueOnError with
          | false =>
              exact congrArg (Journal.mk _) (List.append_assoc _ _ _)
          | true =>
              exact congrArg (Journal.mk _) (List.append_assoc _ _ _)

theorem tagPaths_eq_bind
    (paths : List String) :
    tagPaths w settings paths =
      expand w settings paths >>= fun files => (sweepFiles w settings none {} files).journal := by
  rw [Journal.bind_of_ok (expand_outcome w settings paths)]
  simp only [tagPaths, sweep, expand_outcome]
  rfl

theorem follows_tagFile
    (extensions : List String)
    (path : String) :
    Traced.Follows (tagFileIn w extensions path) (tagFile w extensions path) := by
  unfold tagFileIn tagFile
  split
  · exact Traced.follows_fail _
  · split
    · exact Traced.follows_fail _
    · have hfile : ∀ r ∈ (tagSource w path).notes, r.file = none := fun r hr =>
        (leaves_tagSource w path r hr).file_eq
      exact (Traced.follows_ofLogged hfile).inScope path

theorem follows_note
    {r : Record}
    (hfile : r.file = none) :
    Traced.Follows (Journal.note (logStep r) : Traced Failure Unit) (Journal.note r) :=
  Traced.follows_ofLogged (y := Journal.note r) (List.forall_mem_singleton.2 hfile)

theorem isOuter_failureRecord
    (h : failureRecord path failure = some record) :
    record.IsOuter .error := by
  have hrecord : ∀ {message : String},
      some (Record.of .error .sweep message) = some record → record.IsOuter .error := by
    rintro message ⟨⟩
    exact ⟨rfl, rfl, rfl⟩
  simp only [failureRecord] at h
  split at h
  · exact hrecord h
  · exact hrecord h
  · exact hrecord h
  · split at h
    · exact hrecord h
    · exact hrecord h
  · exact hrecord h
  · cases h
  · cases h

theorem follows_afterFile
    {goOn : Stats → Traced Failure (List Tag × Stats)}
    {goOn' : Stats → Logged Failure (List Tag × Stats)}
    (h : ∀ stats, Traced.Follows (goOn stats) (goOn' stats))
    (path : String)
    (stats : Stats)
    (result : Except Failure Tagged) :
    Traced.Follows (afterFile logStep settings path stats goOn result)
      (afterFile id settings path stats goOn' result) := by
  cases result with
  | ok t =>
      exact (h (stats.add t)).bind fun _ => Traced.follows_pure _
  | error failure =>
      cases hrecord : failureRecord path failure with
      | none =>
          simp only [afterFile, hrecord]
          exact Traced.follows_fail failure
      | some record =>
          simp only [afterFile, hrecord]
          refine (follows_note (isOuter_failureRecord hrecord).file_eq).bind fun _ => ?_
          split
          · exact h stats.addFailure
          · exact Traced.follows_fail failure

theorem follows_sweepFiles
    (stats : Stats)
    (files : List String) :
    Traced.Follows (sweepFilesIn w settings stats files)
      (sweepFiles w settings none stats files).journal := by
  induction files generalizing stats with
  | nil =>
      have hend : Traced.Follows (sweepFilesIn w settings stats [])
          (Journal.note (completionRecord stats) >>= fun _ => pure ([], stats)) :=
        (follows_note rfl).bind fun _ => Traced.follows_pure _
      exact hend
  | cons path rest ih =>
      rw [journal_sweepFiles_cons, sweepFilesIn]
      exact (follows_tagFile w settings.extensions path).attempt.bind fun result =>
        follows_afterFile settings ih path stats result

end Following

section Discovery

theorem leaves_discover
    (w : World)
    (search : Files.Search)
    (directory : String) :
    (discover w search directory).Leaves (Record.IsOuter .info) := by
  unfold discover
  refine .bind (Journal.leaves_note ⟨rfl, rfl, rfl⟩) fun _ => ?_
  split
  · exact Journal.leaves_fail _
  · exact .bind (Journal.leaves_note ⟨rfl, rfl, rfl⟩) fun _ => Journal.leaves_pure _

theorem leaves_expand
    (w : World)
    (settings : Settings)
    (paths : List String) :
    (expand w settings paths).Leaves (Record.IsOuter .info) := by
  induction paths with
  | nil =>
      exact Journal.leaves_pure _
  | cons path paths ih =>
      rw [expand]
      split
      · exact .bind (leaves_discover w (searchOf settings) path) fun _ =>
          .bind ih fun _ => Journal.leaves_pure _
      · exact .bind (Journal.leaves_pure _) fun _ => .bind ih fun _ => Journal.leaves_pure _

/-- Tagging paths in a session does what tagging them with records says. -/
theorem follows_tagPaths
    (w : World)
    (settings : Settings)
    (paths : List String) :
    Traced.Follows (tagPathsIn w settings paths) (tagPaths w settings paths) := by
  rw [tagPaths_eq_bind]
  have hfile : ∀ r ∈ (expand w settings paths).notes, r.file = none := fun r hr =>
    (leaves_expand w settings paths r hr).file_eq
  exact (Traced.follows_ofLogged hfile).bind fun files => follows_sweepFiles w settings {} files

end Discovery

section Attribution

/-- The records about a file that are reported after its scope is closed. -/
def failureRecords (w : World) (extensions : List String) (path : String) : List Record :=
  match (tagFile w extensions path).outcome with
  | .ok _ => []
  | .error failure => (failureRecord path failure).toList

theorem isOuter_of_mem_failureRecords
    {w : World} {extensions : List String} {path : String} {r : Record}
    (h : r ∈ failureRecords w extensions path) :
    r.IsOuter .error := by
  unfold failureRecords at h
  split at h
  · cases h
  · exact isOuter_failureRecord (Option.mem_toList.1 h)

/-- All records about a file. -/
def fileRecords (w : World) (extensions : List String) (path : String) : List Record :=
  (tagFile w extensions path).notes ++ failureRecords w extensions path

theorem failureRecords_of_ok
    {w : World} {extensions : List String} {path : String} {t : Tagged}
    (h : (tagFile w extensions path).outcome = .ok t) :
    failureRecords w extensions path = [] := by
  rw [failureRecords, h]

theorem failureRecords_of_error
    {w : World} {extensions : List String} {path : String} {failure : Failure}
    (h : (tagFile w extensions path).outcome = .error failure) :
    failureRecords w extensions path = (failureRecord path failure).toList := by
  rw [failureRecords, h]

/-- A sweep reports about the first file, and then it goes on or stops. -/
theorem sweepFiles_cons_cases
    (w : World)
    (settings : Settings)
    (stats : Stats)
    (path : String)
    (rest : List String) :
    (∃ next,
      (sweepFiles w settings none stats (path :: rest)).records =
          fileRecords w settings.extensions path ++
            (sweepFiles w settings none next rest).records ∧
        (sweepFiles w settings none stats (path :: rest)).outcome =
          (sweepFiles w settings none next rest).outcome) ∨
      (sweepFiles w settings none stats (path :: rest)).records =
          fileRecords w settings.extensions path ∧
        ∃ failure,
          (sweepFiles w settings none stats (path :: rest)).outcome = .error failure := by
  cases hfile : (tagFile w settings.extensions path).outcome with
  | ok t =>
      rw [sweepFiles_cons_of_ok hfile, fileRecords, failureRecords_of_ok hfile, List.append_nil]
      exact .inl ⟨stats.add t, rfl, rfl⟩
  | error failure =>
      rw [fileRecords, failureRecords_of_error hfile]
      cases hrecord : failureRecord path failure with
      | none =>
          rw [sweepFiles_cons_of_unexpected hfile hrecord]
          exact .inr ⟨(List.append_nil _).symm, failure, rfl⟩
      | some record =>
          rw [sweepFiles_cons_of_error hfile hrecord]
          split
          · exact .inl ⟨stats.addFailure, rfl, rfl⟩
          · exact .inr ⟨List.append_nil _, failure, rfl⟩

/-- What a sweep reports about files comes file by file, up to the one at which it stops. -/
theorem exists_visited
    (w : World)
    (settings : Settings)
    (stats : Stats)
    (files : List String) :
    ∃ visited completion,
      visited <+: files ∧
        (sweepFiles w settings none stats files).records =
          visited.flatMap (fileRecords w settings.extensions) ++ completion ∧
        (∀ r ∈ completion, r.IsOuter .info) ∧
        ((sweepFiles w settings none stats files).outcome = .ok () →
          visited = files ∧ completion.length = 1) := by
  induction files generalizing stats with
  | nil =>
      refine ⟨[], [completionRecord stats], List.prefix_refl [], rfl, ?_, fun _ => ⟨rfl, rfl⟩⟩
      exact List.forall_mem_singleton.2 ⟨rfl, rfl, rfl⟩
  | cons path rest ih =>
      rcases sweepFiles_cons_cases w settings stats path rest with
        ⟨next, hrecords, houtcome⟩ | ⟨hrecords, failure, houtcome⟩
      · obtain ⟨visited, completion, hstart, hvisited, houter, hend⟩ := ih next
        refine ⟨path :: visited, completion, List.cons_prefix_cons.2 ⟨rfl, hstart⟩, ?_,
          houter, ?_⟩
        · rw [hrecords, hvisited, List.flatMap_cons, List.append_assoc]
        · intro hok
          obtain ⟨hall, hone⟩ := hend (houtcome.symm.trans hok)
          exact ⟨congrArg (path :: ·) hall, hone⟩
      · refine ⟨[path], [], List.cons_prefix_cons.2 ⟨rfl, List.nil_prefix⟩, ?_,
          List.forall_mem_nil _, ?_⟩
        · rw [hrecords, List.flatMap_singleton, List.append_nil]
        · intro hok
          rw [houtcome] at hok
          cases hok

theorem file_of_mem_tagFile
    {w : World} {extensions : List String} {path : String} {r : Record}
    (h : r ∈ (tagFile w extensions path).notes) :
    r.file = some path ∧ (r.component = .sweep → r.level ≠ .error) := by
  unfold tagFile at h
  split at h
  · cases h
  · split at h
    · cases h
    · obtain ⟨inner, hinner, rfl⟩ := List.mem_map.1 h
      have hleft := leaves_tagSource w path inner hinner
      refine ⟨?_, hleft.level_ne⟩
      rw [Record.within, hleft.file_eq, Option.getD_none]

theorem map_entry_fileRecords
    (w : World)
    (extensions : List String)
    (outer path : String) :
    (fileRecords w extensions path).map (Record.entry outer) =
      ((tagFile w extensions path).notes.map fun r => ⟨path, r.toMessage⟩) ++
        (failureRecords w extensions path).map fun r => ⟨outer, r.toMessage⟩ := by
  rw [fileRecords, List.map_append]
  congr 1
  · apply List.map_congr_left
    intro r hr
    rw [Record.entry, (file_of_mem_tagFile hr).1, Option.getD_some]
  · apply List.map_congr_left
    intro r hr
    exact Record.entry_of_file_eq_none (isOuter_of_mem_failureRecords hr).file_eq outer

theorem map_entry_of_isOuter
    {records : List Record} {level : Level}
    (h : ∀ r ∈ records, r.IsOuter level)
    (outer : String) :
    records.map (Record.entry outer) = records.map fun r => ⟨outer, r.toMessage⟩ := by
  apply List.map_congr_left
  intro r hr
  exact Record.entry_of_file_eq_none (h r hr).file_eq outer

/-- Tagging paths in a session comes to the same as with records, and leaves the session as
it was, also after a failure.  What it logs is, in order: the search for files, with the
source file from outside; for each file up to the last one that is visited, in the order of
the expanded paths, the messages of tagging it with its path, and its failure with the source
file from outside; and the end, again with that one. -/
theorem tagPaths_entries_name_file
    (w : World)
    (settings : Settings)
    (paths : List String)
    (s : Session) :
    let run := tagPathsIn w settings paths
    run.outcome = (tagPaths w settings paths).outcome ∧
      s.logged run.notes = (tagPaths w settings paths).notes.map (Record.entry s.file) ∧
      s.run run.notes = s ∧
      ∃ files visited completion,
        (expand w settings paths).outcome = .ok files ∧
          visited <+: files ∧
          s.logged run.notes =
            ((expand w settings paths).notes.map fun r => ⟨s.file, r.toMessage⟩) ++
              (visited.flatMap fun path =>
                ((tagFile w settings.extensions path).notes.map fun r => ⟨path, r.toMessage⟩) ++
                  (failureRecords w settings.extensions path).map fun r =>
                    ⟨s.file, r.toMessage⟩) ++
              completion.map (fun r => ⟨s.file, r.toMessage⟩) ∧
          (∀ r ∈ (expand w settings paths).notes ++ completion,
            r.component = .sweep ∧ r.level = .info) ∧
          (∀ path, ∀ r ∈ (tagFile w settings.extensions path).notes,
            r.component = .sweep → r.level ≠ .error) ∧
          (∀ path, ∀ r ∈ failureRecords w settings.extensions path,
            r.component = .sweep ∧ r.level = .error) ∧
          ∀ result, (tagPaths w settings paths).outcome = .ok result →
            visited = files ∧ completion.length = 1 := by
  intro run
  have hrun : Traced.Follows run (tagPaths w settings paths) := follows_tagPaths w settings paths
  obtain ⟨visited, completion, hstart, hvisited, houter, hend⟩ :=
    exists_visited w settings {} (w.expanded settings paths)
  have hnotes :
      (tagPaths w settings paths).notes =
        (expand w settings paths).notes ++
          (visited.flatMap (fileRecords w settings.extensions) ++ completion) := by
    rw [tagPaths_eq_bind, Journal.bind_of_ok (expand_outcome w settings paths), ← hvisited]
    rfl
  refine ⟨hrun.outcome_eq, hrun.logged_eq s, hrun.run_eq s, w.expanded settings paths, visited,
    completion, expand_outcome w settings paths, hstart, ?_, ?_, ?_, ?_, ?_⟩
  · rw [hrun.logged_eq, hnotes, List.map_append, List.map_append, List.map_flatMap,
      map_entry_of_isOuter (leaves_expand w settings paths), map_entry_of_isOuter houter,
      ← List.append_assoc]
    simp only [map_entry_fileRecords]
  · intro r hr
    rcases List.mem_append.1 hr with hfirst | hlast
    · have houter' := leaves_expand w settings paths r hfirst
      exact ⟨houter'.component_eq, houter'.level_eq⟩
    · exact ⟨(houter r hlast).component_eq, (houter r hlast).level_eq⟩
  · intro path r hr
    exact (file_of_mem_tagFile hr).2
  · intro path r hr
    have houter' := isOuter_of_mem_failureRecords hr
    exact ⟨houter'.component_eq, houter'.level_eq⟩
  · intro result hresult
    rw [tagPaths_outcome] at hresult
    obtain ⟨⟨⟩, hok, -⟩ := Outcome.map_eq_ok_iff.1 hresult
    exact hend hok

end Attribution

end Run
end HaskellTags
