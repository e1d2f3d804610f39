import HaskellTags.Proofs.Journal
import HaskellTags.Proofs.Tag.Locators
import HaskellTags.Run.Sweep

/-!
# Sweeps that go on after failures

A sweep tags one file after another.  If the settings say to go on, it passes
over the files without tags and comes to its end: its tags are those of the
sources among the files, in order, and its counts account for every file.

A source is a path that leads to a file with an accepted extension which can be
read.  Nothing is asked of the files; of the parser it is asked that the rows of
a tree are rows of its source.
-/

namespace HaskellTags

/-- A parse that has an outline, and whose tree stays within the rows of the
source. -/
structure Parse.Within (p : Parse) (source : Text.Octets) : Prop where
  form_eq : p.form = none
  rowWithin : ∀ n ∈ p.root.nodes, n.RowWithin source

namespace Run

open Text

section Sources

/-- The octets of a source that a path leads to. -/
def World.source? (w : World) (extensions : List String) (path : String) :
    Option Octets :=
  if Files.isFile w.files path && extensions.contains (Files.Path.extension path) then
    (w.readSource path).toOption
  else none

/-- The sources among some files, in order. -/
def World.sources (w : World) (extensions : List String) (files : List String) :
    List (String × Octets) :=
  files.filterMap fun path => (w.source? extensions path).map (path, ·)

/-- The tags of a source at a path. -/
def World.tagsAt (w : World) (path : String) (octets : Octets) :
    Except Tag.Failure (List Tag) :=
  (Tag.ofOutline oneLine (lines (decode octets))
    ((w.parser octets).outline ⟨path, octets⟩).1).outcome

/-- A source within its rows has tags. -/
theorem exists_tagsAt
    {w : World} {octets : Octets}
    (hwithin : (w.parser octets).Within octets)
    (path : String) :
    ∃ tags, w.tagsAt path octets = .ok tags := by
  have hrows :
      ∀ n ∈ Outline.definingNodes (w.parser octets).root ++
          Outline.importNodes (w.parser octets).root,
        n.RowWithin octets := by
    intro n hn
    apply hwithin.rowWithin
    rcases List.mem_append.1 hn with hn | hn
    · exact Outline.definingNodes_subset _ hn
    · exact (Outline.importNodes_sublist_nodes _).subset hn
  let src : Outline.Source := ⟨path, octets⟩
  have htagged : ∃ tags,
      (Tag.ofModule oneLine (lines (decode src.octets))
        (Outline.ofTree src (w.parser octets).root).1).outcome = .ok tags :=
    Tag.exists_tags_of_rowWithin oneLine hrows
  rw [World.tagsAt, Parse.outline, hwithin.form_eq]
  exact htagged

/-- What tagging a file comes to, without its records. -/
theorem tagFile_outcome
    (w : World)
    (extensions : List String)
    (path : String) :
    (tagFile w extensions path).outcome =
      if Files.isFile w.files path = false then .error (.missing path)
      else if extensions.contains (Files.Path.extension path) = false then
        .error (.notSource path extensions)
      else
        (w.readSource path).mapError Failure.unreadable >>= fun octets =>
          (w.tagsAt path octets).mapError Failure.untagged >>= fun tags =>
            .ok ⟨tags, (w.parser octets).root.errorCount⟩ := by
  unfold tagFile
  cases Files.isFile w.files path with
  | false =>
      rfl
  | true =>
      cases extensions.contains (Files.Path.extension path) with
      | false =>
          rfl
      | true =>
          cases hread : w.readSource path with
          | error e =>
              simp [tagSource, parseFile, hread, Except.mapError]
          | ok octets =>
              cases hflag : (w.parser octets).hasError <;>
                simp [tagSource, parseFile, hread, hflag, tagsOf, World.tagsAt,
                  Except.mapError]

theorem source?_eq_some_iff
    {w : World} {extensions : List String} {path : String} {octets : Octets} :
    w.source? extensions path = some octets ↔
      Files.isFile w.files path = true ∧
        extensions.contains (Files.Path.extension path) = true ∧
        w.readSource path = .ok octets := by
  unfold World.source?
  cases Files.isFile w.files path with
  | false =>
      simp
  | true =>
      cases extensions.contains (Files.Path.extension path) with
      | false =>
          simp
      | true =>
          simp [Outcome.toOption_eq_some_iff]

theorem tagFile_of_source
    {w : World} {extensions : List String} {path : String} {octets : Octets}
    {tags : List Tag}
    (hsource : w.source? extensions path = some octets)
    (htags : w.tagsAt path octets = .ok tags) :
    (tagFile w extensions path).outcome =
      .ok ⟨tags, (w.parser octets).root.errorCount⟩ := by
  obtain ⟨hfile, hextension, hread⟩ := source?_eq_some_iff.1 hsource
  rw [tagFile_outcome, hfile, hextension, hread]
  simp [Except.mapError, htags]

theorem exists_failureRecord_unreadable
    (path : String)
    (e : Files.Error) :
    ∃ record, failureRecord path (.unreadable e) = some record := by
  cases e with
  | nullInPath =>
      exact ⟨_, rfl⟩
  | refused code refusedPath =>
      simp only [failureRecord]
      split
      · exact ⟨_, rfl⟩
      · exact ⟨_, rfl⟩

/-- What is no source fails in a way that a sweep expects. -/
theorem tagFile_of_not_source
    {w : World} {extensions : List String} {path : String}
    (hsource : w.source? extensions path = none) :
    ∃ failure record,
      (tagFile w extensions path).outcome = .error failure ∧
        failureRecord path failure = some record := by
  rw [tagFile_outcome]
  split
  · exact ⟨_, _, rfl, rfl⟩
  · next hfile =>
    split
    · exact ⟨_, _, rfl, rfl⟩
    · next hextension =>
      rw [Bool.not_eq_false] at hfile hextension
      cases hread : w.readSource path with
      | error e =>
          obtain ⟨record, hrecord⟩ := exists_failureRecord_unreadable path e
          exact ⟨.unreadable e, record, rfl, hrecord⟩
      | ok octets =>
          have hsome := source?_eq_some_iff.2 ⟨hfile, hextension, hread⟩
          rw [hsource] at hsome
          cases hsome

end Sources

section Sweeping

/-- The files that paths stand for: those found below a directory, and any other
path itself. -/
def World.expanded (w : World) (settings : Settings) (paths : List String) :
    List String :=
  paths.flatMap fun path =>
    if Files.isDirectory w.files path then (searchOf settings).found w.files path
    else [path]

/-- What the search for source files comes to. -/
theorem discover_outcome_eq
    (w : World)
    (search : Files.Search)
    (directory : String) :
    (discover w search directory).outcome =
      if Files.holdsNull directory then .error (.unreadable .nullInPath)
      else .ok (search.found w.files directory) := by
  unfold discover
  cases Files.holdsNull directory with
  | true =>
      simp
  | false =>
      simp

theorem discover_outcome
    {w : World} {directory : String}
    (search : Files.Search)
    (hdirectory : Files.isDirectory w.files directory = true) :
    (discover w search directory).outcome = .ok (search.found w.files directory) := by
  have hnull : Files.holdsNull directory = false := by
    cases hnull : Files.holdsNull directory with
    | false =>
        rfl
    | true =>
        simp [Files.isDirectory, Files.entryAt, hnull] at hdirectory
  rw [discover_outcome_eq, hnull]
  rfl

/-- Paths can always be expanded. -/
theorem expand_outcome
    (w : World)
    (settings : Settings)
    (paths : List String) :
    (expand w settings paths).outcome = .ok (w.expanded settings paths) := by
  induction paths with
  | nil =>
      rfl
  | cons path paths ih =>
      cases hdirectory : Files.isDirectory w.files path with
      | false =>
          simp [expand, World.expanded, hdirectory, ih]
      | true =>
          simp [expand, World.expanded, hdirectory, ih,
            discover_outcome (searchOf settings) hdirectory]

/-- What a sweep comes to, without its records. -/
def Sweep.result (s : Sweep) :
    List (String × List Tag) × Stats × Except Failure Unit :=
  (s.tagged, s.stats, s.outcome)

theorem Sweep.result_eq_iff
    {s : Sweep} {tagged : List (String × List Tag)} {stats : Stats}
    {outcome : Except Failure Unit} :
    s.result = (tagged, stats, outcome) ↔
      s.tagged = tagged ∧ s.stats = stats ∧ s.outcome = outcome := by
  rw [Sweep.result, Prod.mk.injEq, Prod.mk.injEq]

@[simp] theorem Sweep.result_after
    (records : List Log.Record)
    (s : Sweep) :
    (s.after records).result = s.result := by
  rfl

/-- A sweep after some files with tags. -/
def Sweep.behind (s : Sweep) (tagged : List (String × List Tag)) : Sweep :=
  { s with tagged := tagged ++ s.tagged }

theorem Sweep.result_behind
    (s : Sweep)
    (tagged : List (String × List Tag)) :
    (s.behind tagged).result = (tagged ++ s.result.1, s.result.2) := by
  rfl

/-- A file with tags stands before those of the files after it, unless it reaches the
limit. -/
theorem result_sweepFiles_of_going
    {w : World} {settings : Settings} {path : String} {t : Tagged} {limit : Option Nat}
    (hpath : (tagFile w settings.extensions path).outcome = .ok t)
    (hgoing : limit.map (· - 1) ≠ some 0)
    (before : Stats)
    (rest : List String) :
    (sweepFiles w settings limit before (path :: rest)).result =
      ((sweepFiles w settings (limit.map (· - 1)) (before.add t) rest).behind
        [(path, t.tags)]).result := by
  simp only [sweepFiles, hpath, if_neg hgoing]
  rfl

theorem result_sweepFiles_of_ok
    {w : World} {settings : Settings} {path : String} {t : Tagged}
    (hpath : (tagFile w settings.extensions path).outcome = .ok t)
    (stats : Stats)
    (rest : List String) :
    (sweepFiles w settings none stats (path :: rest)).result =
      ((path, t.tags) :: (sweepFiles w settings none (stats.add t) rest).tagged,
        (sweepFiles w settings none (stats.add t) rest).stats,
        (sweepFiles w settings none (stats.add t) rest).outcome) := by
  have hgoing : none.map (· - 1) ≠ some 0 := nofun
  exact result_sweepFiles_of_going hpath hgoing stats rest

theorem result_sweepFiles_of_error
    {w : World} {settings : Settings} {path : String} {failure : Failure}
    {record : Log.Record}
    (hpath : (tagFile w settings.extensions path).outcome = .error failure)
    (hrecord : failureRecord path failure = some record)
    (stats : Stats)
    (rest : List String) :
    (sweepFiles w settings none stats (path :: rest)).result =
      if settings.continueOnError then
        (sweepFiles w settings none stats.addFailure rest).result
      else ([], stats.addFailure, .error failure) := by
  simp only [sweepFiles, hpath, hrecord]
  split <;> rfl

end Sweeping

section Tallies

/-- The number of errors in the trees of some sources, added up. -/
def World.errorsIn (w : World) : List (String × Octets) → Nat
  | [] => 0
  | (_, octets) :: rest => (w.parser octets).root.errorCount + w.errorsIn rest

/-- The tags of the sources among some files, and counts that account for every
file: the sources are processed, all other files fail. -/
structure Tallies (w : World) (extensions files : List String) (before : Stats)
    (lists : List (List Tag)) (after : Stats) : Prop where
  lists_eq :
    (w.sources extensions files).mapM (fun source => w.tagsAt source.1 source.2) =
      .ok lists
  processed_eq : after.processed = before.processed + (w.sources extensions files).length
  handled_eq :
    after.processed + after.failed = before.processed + before.failed + files.length
  tags_eq : after.tags = before.tags + lists.flatten.length
  parseErrors_eq :
    after.parseErrors = before.parseErrors + w.errorsIn (w.sources extensions files)

variable {w : World} {extensions : List String} {path : String} {rest : List String}
  {before after : Stats} {lists : List (List Tag)}

theorem sources_cons_of_source
    {octets : Octets}
    (hsource : w.source? extensions path = some octets)
    (rest : List String) :
    w.sources extensions (path :: rest) =
      (path, octets) :: w.sources extensions rest := by
  simp [World.sources, hsource]

theorem sources_cons_of_not_source
    (hsource : w.source? extensions path = none)
    (rest : List String) :
    w.sources extensions (path :: rest) = w.sources extensions rest := by
  simp [World.sources, hsource]

theorem Tallies.nil :
    Tallies w extensions [] before [] before where
  lists_eq := rfl
  processed_eq := rfl
  handled_eq := rfl
  tags_eq := rfl
  parseErrors_eq := rfl

theorem Tallies.cons_source
    {octets : Octets} {tags : List Tag}
    (hsource : w.source? extensions path = some octets)
    (htags : w.tagsAt path octets = .ok tags)
    (h : Tallies w extensions rest
      (before.add ⟨tags, (w.parser octets).root.errorCount⟩) lists after) :
    Tallies w extensions (path :: rest) before (tags :: lists) after := by
  have hcons := sources_cons_of_source hsource rest
  have hprocessed := h.processed_eq
  have hhandled := h.handled_eq
  have hcount := h.tags_eq
  have herrors := h.parseErrors_eq
  simp only [Stats.add] at hprocessed hhandled hcount herrors
  constructor
  · rw [hcons, List.mapM_cons, htags, h.lists_eq]
    rfl
  · rw [hcons, List.length_cons]
    omega
  · rw [List.length_cons]
    omega
  · rw [List.flatten_cons, List.length_append]
    omega
  · rw [hcons, World.errorsIn]
    omega

theorem Tallies.cons_failure
    (hsource : w.source? extensions path = none)
    (h : Tallies w extensions rest before.addFailure lists after) :
    Tallies w extensions (path :: rest) before lists after := by
  have hcons := sources_cons_of_not_source hsource rest
  have hhandled := h.handled_eq
  simp only [Stats.addFailure] at hhandled
  constructor
  · rw [hcons]
    exact h.lists_eq
  · rw [hcons]
    exact h.processed_eq
  · rw [List.length_cons]
    omega
  · exact h.tags_eq
  · rw [hcons]
    exact h.parseErrors_eq

/-- A sweep that goes on after failures comes to its end and tallies. -/
theorem tallies_sweepFiles
    {settings : Settings}
    (hcontinue : settings.continueOnError = true)
    (hparser : ∀ octets, (w.parser octets).Within octets)
    (before : Stats)
    (files : List String) :
    (sweepFiles w settings none before files).outcome = .ok () ∧
      Tallies w settings.extensions files before
        ((sweepFiles w settings none before files).tagged.map Prod.snd)
        (sweepFiles w settings none before files).stats := by
  -- The counts so far are generalized: each file changes them for the rest.
  induction files generalizing before with
  | nil =>
      exact ⟨rfl, .nil⟩
  | cons path rest ih =>
      cases hsource : w.source? settings.extensions path with
      | none =>
          obtain ⟨failure, record, hpath, hrecord⟩ := tagFile_of_not_source hsource
          have hresult := result_sweepFiles_of_error hpath hrecord before rest
          rw [if_pos hcontinue] at hresult
          obtain ⟨htagged, hstats, houtcome⟩ := Sweep.result_eq_iff.1 hresult
          obtain ⟨hend, htallies⟩ := ih before.addFailure
          rw [htagged, hstats, houtcome]
          exact ⟨hend, htallies.cons_failure hsource⟩
      | some octets =>
          obtain ⟨tags, htags⟩ := exists_tagsAt (hparser octets) path
          have hpath := tagFile_of_source hsource htags
          obtain ⟨htagged, hstats, houtcome⟩ :=
            Sweep.result_eq_iff.1 (result_sweepFiles_of_ok hpath before rest)
          obtain ⟨hend, htallies⟩ :=
            ih (before.add ⟨tags, (w.parser octets).root.errorCount⟩)
          rw [htagged, hstats, houtcome]
          exact ⟨hend, htallies.cons_source hsource htags⟩

theorem result_sweep
    (w : World)
    (settings : Settings)
    (before : Stats)
    (paths : List String) :
    (sweep w settings none before paths).result =
      (sweepFiles w settings none before (w.expanded settings paths)).result := by
  simp [sweep, expand_outcome]

/-- One more file that is no source is one more failure and nothing else. -/
theorem Tallies.of_failure_added
    {w' : World} {files files' : List String} {lists' : List (List Tag)}
    {after' : Stats}
    (h : Tallies w extensions files before lists after)
    (h' : Tallies w' extensions files' before lists' after')
    (hparser : w'.parser = w.parser)
    (hsources : w'.sources extensions files' = w.sources extensions files)
    (hlength : files'.length = files.length + 1) :
    lists' = lists ∧ after' = { after with failed := after.failed + 1 } := by
  have htagsAt : w'.tagsAt = w.tagsAt := by
    funext path octets
    rw [World.tagsAt, World.tagsAt, hparser]
  have herrorsIn : w'.errorsIn = w.errorsIn := by
    funext sources
    induction sources with
    | nil =>
        rfl
    | cons source rest ih =>
        simp only [World.errorsIn, hparser, ih]
  have hlists : lists' = lists := by
    have hboth := h'.lists_eq
    rw [htagsAt, hsources, h.lists_eq] at hboth
    exact (Except.ok.inj hboth).symm
  have hprocessed := h'.processed_eq
  have hhandled := h'.handled_eq
  have hcount := h'.tags_eq
  have herrors := h'.parseErrors_eq
  rw [hsources, ← h.processed_eq] at hprocessed
  rw [hlength, hprocessed] at hhandled
  rw [hlists, ← h.tags_eq] at hcount
  rw [hsources, herrorsIn, ← h.parseErrors_eq] at herrors
  have hfailed : after'.failed = after.failed + 1 := by
    have := h.handled_eq
    omega
  refine ⟨hlists, ?_⟩
  cases after'
  simp_all

theorem sources_append_cons
    {w' : World} {earlier later : List String}
    (hsame : ∀ file ∈ earlier ++ later,
      w'.source? extensions file = w.source? extensions file)
    (hpath : w'.source? extensions path = none) :
    w'.sources extensions (earlier ++ path :: later) =
      w.sources extensions (earlier ++ later) := by
  have hdrop :
      w'.sources extensions (earlier ++ path :: later) =
        w'.sources extensions (earlier ++ later) := by
    simp [World.sources, hpath]
  rw [hdrop]
  apply List.filterMap_congr
  intro file hfile
  rw [hsame file hfile]

end Tallies

section Paths

/-- The sweep over the files that paths stand for. -/
def World.swept (w : World) (settings : Settings) (paths : List String) : Sweep :=
  sweepFiles w settings none {} (w.expanded settings paths)

theorem tagPaths_outcome
    (w : World)
    (settings : Settings)
    (paths : List String) :
    (tagPaths w settings paths).outcome =
      (w.swept settings paths).outcome.map fun _ =>
        ((w.swept settings paths).tags, (w.swept settings paths).stats) := by
  obtain ⟨htagged, hstats, houtcome⟩ :=
    Sweep.result_eq_iff.1 (result_sweep w settings {} paths)
  simp only [tagPaths, World.swept, Sweep.tags, htagged, hstats, houtcome]

theorem tagLines_eq
    (w : World)
    (settings : Settings)
    (paths : List String) :
    (tagLines w settings paths).1 = (w.swept settings paths).tags.map Tag.render ∧
      (tagLines w settings paths).2.outcome = (w.swept settings paths).outcome := by
  obtain ⟨htagged, -, houtcome⟩ :=
    Sweep.result_eq_iff.1 (result_sweep w settings {} paths)
  simp only [tagLines, World.swept, Sweep.tags, htagged, houtcome,
    List.map_flatMap, and_self]

/-- Tagging paths tallies, and the streamed lines are those of the same tags. -/
theorem exists_tallies_tagPaths
    {w : World} {settings : Settings}
    (hcontinue : settings.continueOnError = true)
    (hparser : ∀ octets, (w.parser octets).Within octets)
    (paths : List String) :
    ∃ lists stats,
      (tagPaths w settings paths).outcome = .ok (lists.flatten, stats) ∧
        Tallies w settings.extensions (w.expanded settings paths) {} lists stats ∧
        (tagLines w settings paths).2.outcome = .ok () ∧
        (tagLines w settings paths).1 = lists.flatten.map Tag.render := by
  obtain ⟨hend, htallies⟩ :=
    tallies_sweepFiles hcontinue hparser {} (w.expanded settings paths)
  obtain ⟨hlines, hstreamed⟩ := tagLines_eq w settings paths
  have hflat :
      ((w.swept settings paths).tagged.map Prod.snd).flatten =
        (w.swept settings paths).tags :=
    List.flatMap_def.symm
  refine ⟨_, _, ?_, htallies, hstreamed.trans hend, ?_⟩
  · rw [tagPaths_outcome, ← hflat, World.swept, hend]
    rfl
  · rw [hlines, ← hflat, World.swept]

/-- If the settings say to go on after failures, tagging paths gives the tags of
the sources among the files that the paths stand for, in order, with counts that
account for every file, and its lines are those of the tags.  A file more that
is no source is counted as failed and changes nothing else. -/
theorem tagPaths_of_continueOnError
    (w : World)
    (settings : Settings)
    (hcontinue : settings.continueOnError = true)
    (hparser : ∀ octets, (w.parser octets).Within octets)
    (paths : List String) :
    ∃ files lists stats,
      (expand w settings paths).outcome = .ok files ∧
        (tagPaths w settings paths).outcome = .ok (lists.flatten, stats) ∧
        Tallies w settings.extensions files {} lists stats ∧
        (tagLines w settings paths).2.outcome = .ok () ∧
        (tagLines w settings paths).1 = lists.flatten.map Tag.render ∧
        ∀ (w' : World) (paths' earlier later : List String) (path : String),
          files = earlier ++ later →
          (expand w' settings paths').outcome = .ok (earlier ++ path :: later) →
          w'.parser = w.parser →
          (∀ file ∈ files,
            w'.source? settings.extensions file = w.source? settings.extensions file) →
          w'.source? settings.extensions path = none →
          (tagPaths w' settings paths').outcome =
            .ok (lists.flatten, { stats with failed := stats.failed + 1 }) := by
  obtain ⟨lists, stats, htags, htallies, hend, hlines⟩ :=
    exists_tallies_tagPaths hcontinue hparser paths
  refine ⟨_, lists, stats, expand_outcome w settings paths, htags, htallies, hend,
    hlines, ?_⟩
  intro w' paths' earlier later path hfiles hexpand hsame hsources hpath
  have hfiles' : w'.expanded settings paths' = earlier ++ path :: later := by
    rw [expand_outcome] at hexpand
    exact Except.ok.inj hexpand
  obtain ⟨lists', stats', htags', htallies', -, -⟩ :=
    exists_tallies_tagPaths hcontinue (w := w') (hsame ▸ hparser) paths'
  rw [hfiles] at htallies hsources
  rw [hfiles'] at htallies'
  have hlength :
      (earlier ++ path :: later).length = (earlier ++ later).length + 1 := by
    simp only [List.length_append, List.length_cons]
    omega
  obtain ⟨rfl, rfl⟩ := htallies.of_failure_added htallies' hsame
    (sources_append_cons hsources hpath) hlength
  exact htags'

namespace Sample

/-- A world with one source; nothing else is there. -/
def world : World :=
  ((World.empty "/work").put "M.hs" (.file Tag.Sample.source.octets)).learn
    Tag.Sample.source.octets ⟨Tag.Sample.tree, false, none⟩

theorem within_world
    (octets : Octets) :
    (world.parser octets).Within octets := by
  change (if octets = Tag.Sample.source.octets then
    (⟨Tag.Sample.tree, false, none⟩ : Parse) else Parse.bare octets).Within octets
  split
  · next heq =>
    subst heq
    exact ⟨rfl, by decide +kernel⟩
  · refine ⟨rfl, ?_⟩
    intro n hn
    simp only [Parse.bare, Tree.Node.nodes, Tree.Node.nodesIn,
      List.mem_singleton] at hn
    subst hn
    exact ⟨Int.le_refl 0, Int.natCast_nonneg _⟩

end Sample

theorem tagPaths_of_continueOnError_sample :
    (∀ octets, (Sample.world.parser octets).Within octets) ∧
      ∃ tags stats,
        (tagPaths Sample.world { continueOnError := true } ["M.hs"]).outcome =
          .ok (tags, stats) ∧
        (tagPaths Sample.world { continueOnError := true } ["gone.hs", "M.hs"]).outcome =
          .ok (tags, { stats with failed := stats.failed + 1 }) := by
  obtain ⟨files, lists, stats, hexpand, htags, -, -, -, hadded⟩ :=
    tagPaths_of_continueOnError Sample.world { continueOnError := true } rfl
      Sample.within_world ["M.hs"]
  have hfiles : files = [] ++ ["M.hs"] := by
    rw [expand_outcome] at hexpand
    rw [← Except.ok.inj hexpand]
    decide +kernel
  have hmore :
      (expand Sample.world { continueOnError := true } ["gone.hs", "M.hs"]).outcome =
        .ok ([] ++ "gone.hs" :: ["M.hs"]) := by
    rw [expand_outcome]
    exact congrArg Except.ok (by decide +kernel)
  refine ⟨Sample.within_world, lists.flatten, stats, htags, ?_⟩
  exact hadded Sample.world _ _ _ _ hfiles hmore rfl (fun _ _ => rfl)
    (by decide +kernel)

end Paths

end Run
end HaskellTags
