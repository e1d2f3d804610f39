import HaskellTags.Proofs.Run.Strictness

/-!
# Sweeps that stop at a failure

A sweep over the same files may go on after a failure or stop at it.  What it has come to
depends on the files that it has handled and on nothing else: the tags are those of each
file that has any, and the counts are added up file by file.  This is
`result_sweepFiles_append`, for any way of going on and any limit.

So a sweep that stops is the start of the one that goes on, up to the first failure:
`failFast_sweep_is_prefix`.  The failures may be of any kind that a sweep expects, an
unsupported form among them; of the parser it is only asked that the rows of a tree are
rows of its source.
-/

namespace HaskellTags
namespace Run

open Text

section Failures

/-- The rows of every tree that the parser gives are rows of its source. -/
def World.RowsWithin (w : World) : Prop :=
  ∀ octets, ∀ n ∈ (w.parser octets).root.nodes, n.RowWithin octets

variable {w : World} {extensions : List String} {path : String}

/-- A source has tags unless its form has no outline. -/
theorem tagsAt_of_rowsWithin
    (hrows : w.RowsWithin)
    (path : String)
    (octets : Octets) :
    (∃ tags, w.tagsAt path octets = .ok tags) ∨
      ∃ form file, w.tagsAt path octets = .error (.unsupported form file) := by
  cases hform : (w.parser octets).form with
  | none =>
      exact .inl (exists_tagsAt ⟨hform, hrows octets⟩ path)
  | some form =>
      refine .inr ⟨form, some path, ?_⟩
      rw [World.tagsAt, Parse.outline, hform]
      rfl

/-- A sweep expects every failure of a file. -/
theorem exists_failureRecord
    {failure : Failure}
    (hrows : w.RowsWithin)
    (hpath : (tagFile w extensions path).outcome = .error failure) :
    ∃ record, failureRecord path failure = some record := by
  cases hsource : w.source? extensions path with
  | none =>
      obtain ⟨failure', record, hpath', hrecord⟩ := tagFile_of_not_source hsource
      rw [hpath] at hpath'
      cases hpath'
      exact ⟨record, hrecord⟩
  | some octets =>
      obtain ⟨hfile, hextension, hread⟩ := source?_eq_some_iff.1 hsource
      rcases tagsAt_of_rowsWithin hrows path octets with ⟨tags, htags⟩ | ⟨form, file, hform⟩
      · rw [tagFile_of_source hsource htags] at hpath
        cases hpath
      · rw [tagFile_outcome, hfile, hextension, hread] at hpath
        simp only [Bool.true_eq_false, if_false, Except.mapError, Outcome.ok_bind, hform,
          Outcome.error_bind] at hpath
        cases hpath
        exact ⟨_, rfl⟩

theorem tagOne_outcome
    (w : World)
    (extensions : List String)
    (path : String) :
    (tagOne w extensions path).outcome =
      (tagFile w extensions path).outcome.map Tagged.tags := by
  unfold tagOne Journal.noteFault
  cases hpath : (tagFile w extensions path).outcome with
  | ok t =>
      simp [hpath, Except.map]
  | error failure =>
      simp [Except.map]

end Failures

section Counting

/-- A file with its tags, if it has tags. -/
def World.pair? (w : World) (extensions : List String) (path : String) :
    Option (String × List Tag) :=
  (tagOne w extensions path).outcome.toOption.map (path, ·)

/-- The files that have tags, with these, in order. -/
def World.pairs (w : World) (extensions files : List String) : List (String × List Tag) :=
  files.filterMap (w.pair? extensions)

/-- The counts after one more file. -/
def World.count (w : World) (extensions : List String) (stats : Stats) (path : String) :
    Stats :=
  match (tagFile w extensions path).outcome with
  | .ok t => stats.add t
  | .error _ => stats.addFailure

variable {w : World} {extensions : List String} {path : String}

/-- One more file, with tags or without. -/
theorem pair?_cases
    (w : World)
    (extensions : List String)
    (path : String) :
    (∃ t, (tagFile w extensions path).outcome = .ok t ∧
        w.pair? extensions path = some (path, t.tags) ∧
        ∀ stats, w.count extensions stats path = stats.add t) ∨
      ∃ failure, (tagFile w extensions path).outcome = .error failure ∧
        w.pair? extensions path = none ∧
        ∀ stats, w.count extensions stats path = stats.addFailure := by
  unfold World.pair? World.count
  rw [tagOne_outcome]
  cases (tagFile w extensions path).outcome with
  | ok t =>
      exact .inl ⟨t, rfl, rfl, fun _ => rfl⟩
  | error failure =>
      exact .inr ⟨failure, rfl, rfl, fun _ => rfl⟩

/-- What counts say about the files between them. -/
structure Counts (w : World) (extensions files : List String) (before after : Stats) :
    Prop where
  processed_eq :
    after.processed = before.processed + (w.pairs extensions files).length
  handled_eq :
    after.processed + after.failed = before.processed + before.failed + files.length
  tags_eq :
    after.tags = before.tags + ((w.pairs extensions files).flatMap Prod.snd).length

theorem pairs_cons_of_some
    {pair : String × List Tag}
    (hpair : w.pair? extensions path = some pair)
    (files : List String) :
    w.pairs extensions (path :: files) = pair :: w.pairs extensions files :=
  List.filterMap_cons_some hpair

theorem pairs_cons_of_none
    (hpair : w.pair? extensions path = none)
    (files : List String) :
    w.pairs extensions (path :: files) = w.pairs extensions files :=
  List.filterMap_cons_none hpair

theorem fst_of_pair?
    {pair : String × List Tag}
    (h : w.pair? extensions path = some pair) :
    pair.1 = path := by
  obtain ⟨tags, -, rfl⟩ := Option.map_eq_some_iff.1 h
  rfl

theorem pairs_concat
    {pair : String × List Tag}
    (hpair : w.pair? extensions path = some pair)
    (earlier : List String) :
    w.pairs extensions (earlier ++ [path]) = w.pairs extensions earlier ++ [pair] := by
  simp [World.pairs, hpair]

/-- What one file adds to the counts. -/
theorem Counts.cons
    {files : List String} {before after : Stats}
    (h : Counts w extensions files (w.count extensions before path) after) :
    Counts w extensions (path :: files) before after := by
  obtain ⟨hprocessed, hhandled, htags⟩ := h
  rcases pair?_cases w extensions path with ⟨t, -, hpair, hcount⟩ | ⟨-, -, hpair, hcount⟩
  · have hpairs := pairs_cons_of_some hpair files
    simp only [hcount, Stats.add] at hprocessed hhandled htags
    constructor
    · rw [hprocessed, hpairs, List.length_cons]
      omega
    · rw [hhandled, List.length_cons]
      omega
    · rw [htags, hpairs, List.flatMap_cons, List.length_append]
      exact Nat.add_assoc _ _ _
  · have hpairs := pairs_cons_of_none hpair files
    simp only [hcount, Stats.addFailure] at hprocessed hhandled htags
    constructor
    · rw [hprocessed, hpairs]
    · rw [hhandled, List.length_cons]
      omega
    · rw [htags, hpairs]

theorem counts_foldl
    (w : World)
    (extensions files : List String)
    (before : Stats) :
    Counts w extensions files before (files.foldl (w.count extensions) before) := by
  induction files generalizing before with
  | nil =>
      exact ⟨rfl, rfl, rfl⟩
  | cons path files ih =>
      exact (ih (w.count extensions before path)).cons

end Counting

section Handling

/-- A sweep goes on after a file. -/
def World.Passes (w : World) (settings : Settings) (path : String) : Prop :=
  settings.continueOnError = true ∨
    ∃ pair, w.pair? settings.extensions path = some pair

variable {w : World} {settings : Settings}

/-- What a sweep has come to after files at which it does not stop, whatever follows. -/
theorem result_sweepFiles_append
    (hrows : w.RowsWithin)
    {passed : List String}
    (hpassed : ∀ file ∈ passed, w.Passes settings file)
    {limit : Option Nat}
    (hlimit : ∀ k, limit = some k → (w.pairs settings.extensions passed).length < k)
    (before : Stats)
    (rest : List String) :
    (sweepFiles w settings limit before (passed ++ rest)).result =
      ((sweepFiles w settings
          (limit.map (· - (w.pairs settings.extensions passed).length))
          (passed.foldl (w.count settings.extensions) before) rest).behind
        (w.pairs settings.extensions passed)).result := by
  -- The limit and the counts are generalized: each file with tags changes both.
  induction passed generalizing limit before with
  | nil =>
      have hkept : limit.map (· - 0) = limit := by
        cases limit <;> rfl
      change _ = ((sweepFiles w settings (limit.map (· - 0)) before rest).behind []).result
      rw [hkept]
      rfl
  | cons path passed ih =>
      have htail : ∀ file ∈ passed, w.Passes settings file :=
        fun file hfile => hpassed file (List.mem_cons_of_mem path hfile)
      rw [List.cons_append, List.foldl_cons]
      rcases pair?_cases w settings.extensions path with
        ⟨t, hpath, hpair, hcount⟩ | ⟨failure, hpath, hpair, hcount⟩
      · rw [pairs_cons_of_some hpair passed, List.length_cons] at hlimit
        have hgoing : limit.map (· - 1) ≠ some 0 := by
          cases limit with
          | none =>
              nofun
          | some k =>
              have hk := hlimit k rfl
              simp only [Option.map_some, ne_eq, Option.some.injEq]
              omega
        have hleft : ∀ k, limit.map (· - 1) = some k →
            (w.pairs settings.extensions passed).length < k := by
          intro k hk
          obtain ⟨k', rfl, rfl⟩ := Option.map_eq_some_iff.1 hk
          have hk' := hlimit k' rfl
          omega
        have hmap : (limit.map (· - 1)).map (· - (w.pairs settings.extensions passed).length) =
            limit.map (· - (w.pairs settings.extensions (path :: passed)).length) := by
          rw [Option.map_map, pairs_cons_of_some hpair passed, List.length_cons]
          congr 1
          funext k
          simp only [Function.comp_apply]
          omega
        rw [result_sweepFiles_of_going hpath hgoing, Sweep.result_behind,
          ih htail hleft, hmap, hcount, Sweep.result_behind, Sweep.result_behind,
          pairs_cons_of_some hpair passed]
        rfl
      · have hpairs := pairs_cons_of_none hpair passed
        obtain ⟨record, hrecord⟩ := exists_failureRecord hrows hpath
        have hcontinue : settings.continueOnError = true := by
          rcases hpassed path List.mem_cons_self with h | ⟨pair, h⟩
          · exact h
          · rw [hpair] at h
            cases h
        rw [hpairs] at hlimit ⊢
        rw [hcount, ← ih htail hlimit]
        simp only [sweepFiles, hpath, hrecord, hcontinue, if_true, Sweep.result_after]

/-- A sweep that stops nowhere comes to its end. -/
theorem result_sweepFiles_of_passed
    (hrows : w.RowsWithin)
    {files : List String}
    (hpassed : ∀ file ∈ files, w.Passes settings file)
    (before : Stats) :
    (sweepFiles w settings none before files).result =
      (w.pairs settings.extensions files,
        files.foldl (w.count settings.extensions) before, .ok ()) := by
  have hnone : ∀ k, none = some k → (w.pairs settings.extensions files).length < k := nofun
  have hall := result_sweepFiles_append hrows hpassed hnone before []
  rw [List.append_nil, Sweep.result_behind] at hall
  rw [hall]
  simp [sweepFiles, Sweep.result]

/-- A sweep that does not go on stops at the first failure and counts it. -/
theorem result_sweepFiles_of_failure
    (hrows : w.RowsWithin)
    (hstop : settings.continueOnError = false)
    {earlier : List String} {path : String} {failure : Failure}
    (hpassed : ∀ file ∈ earlier, w.Passes settings file)
    (hpath : (tagOne w settings.extensions path).outcome = .error failure)
    (before : Stats)
    (later : List String) :
    (sweepFiles w settings none before (earlier ++ path :: later)).result =
      (w.pairs settings.extensions earlier,
        (earlier.foldl (w.count settings.extensions) before).addFailure,
        .error failure) := by
  rw [tagOne_outcome, Outcome.map_eq_error_iff] at hpath
  obtain ⟨record, hrecord⟩ := exists_failureRecord hrows hpath
  have hnone : ∀ k, none = some k → (w.pairs settings.extensions earlier).length < k := nofun
  rw [result_sweepFiles_append hrows hpassed hnone, Sweep.result_behind, Option.map_none,
    result_sweepFiles_of_error hpath hrecord, hstop]
  simp

/-- A sweep with a limit ends at the file with tags that reaches the limit. -/
theorem result_sweepFiles_of_limit
    (hrows : w.RowsWithin)
    {earlier : List String} {path : String} {pair : String × List Tag}
    (hpassed : ∀ file ∈ earlier, w.Passes settings file)
    (hpath : w.pair? settings.extensions path = some pair)
    (before : Stats)
    (later : List String) :
    (sweepFiles w settings (some ((w.pairs settings.extensions earlier).length + 1)) before
        (earlier ++ path :: later)).result =
      (w.pairs settings.extensions (earlier ++ [path]),
        (earlier ++ [path]).foldl (w.count settings.extensions) before, .ok ()) := by
  have hroom : ∀ k, some ((w.pairs settings.extensions earlier).length + 1) = some k →
      (w.pairs settings.extensions earlier).length < k := by
    intro k hk
    cases hk
    exact Nat.lt_succ_self _
  rw [result_sweepFiles_append hrows hpassed hroom, Sweep.result_behind,
    pairs_concat hpath, List.foldl_append]
  rcases pair?_cases w settings.extensions path with
    ⟨t, hfile, hpair, hcount⟩ | ⟨failure, hfile, hpair, -⟩
  · rw [hpath] at hpair
    cases hpair
    simp [sweepFiles, hfile, Sweep.result, hcount]
  · rw [hpath] at hpair
    cases hpair

end Handling

section Yielding

variable {w : World}

/-- The files up to the one where a sweep stops. -/
theorem exists_passed
    (w : World)
    (settings : Settings)
    (files : List String) :
    ∃ passed rest, files = passed ++ rest ∧ (∀ file ∈ passed, w.Passes settings file) ∧
      (rest = [] ∨
        ∃ path later failure, rest = path :: later ∧ settings.continueOnError = false ∧
          (tagOne w settings.extensions path).outcome = .error failure) := by
  induction files with
  | nil =>
      exact ⟨[], [], rfl, List.forall_mem_nil _, .inl rfl⟩
  | cons path files ih =>
      obtain ⟨passed, rest, rfl, hpassed, hrest⟩ := ih
      by_cases hpath : w.Passes settings path
      · exact ⟨path :: passed, rest, rfl, List.forall_mem_cons.2 ⟨hpath, hpassed⟩, hrest⟩
      · obtain ⟨hstop, hnone⟩ := not_or.1 hpath
        rcases pair?_cases w settings.extensions path with
          ⟨t, -, hpair, -⟩ | ⟨failure, hfile, -, -⟩
        · exact absurd ⟨_, hpair⟩ hnone
        · refine ⟨[], _, rfl, List.forall_mem_nil _, .inr ⟨path, _, failure, rfl, ?_, ?_⟩⟩
          · simpa using hstop
          · rw [tagOne_outcome, hfile]
            rfl

/-- The tags that a sweep comes to are those of the files up to the one where it stops. -/
theorem exists_passed_tagged
    (hrows : w.RowsWithin)
    (settings : Settings)
    (before : Stats)
    (files : List String) :
    ∃ passed rest, files = passed ++ rest ∧ (∀ file ∈ passed, w.Passes settings file) ∧
      (sweepFiles w settings none before files).tagged =
        w.pairs settings.extensions passed := by
  obtain ⟨passed, rest, rfl, hpassed, rfl | ⟨path, later, failure, rfl, hstop, hpath⟩⟩ :=
    exists_passed w settings files
  · refine ⟨passed, [], rfl, hpassed, ?_⟩
    rw [List.append_nil]
    exact congrArg Prod.fst (result_sweepFiles_of_passed hrows hpassed before)
  · have hresult := result_sweepFiles_of_failure hrows hstop hpassed hpath before later
    exact ⟨passed, _, rfl, hpassed, congrArg Prod.fst hresult⟩

/-- The file whose tags come after a number of others. -/
theorem exists_nth_pair
    {extensions files : List String} {tagged : List (String × List Tag)} {n : Nat}
    (hpairs : w.pairs extensions files = tagged)
    (hn : n < tagged.length) :
    ∃ earlier path later, files = earlier ++ path :: later ∧
      w.pair? extensions path = some tagged[n] ∧
      w.pairs extensions earlier = tagged.take n := by
  rw [← List.take_append_drop n tagged, List.drop_eq_getElem_cons hn] at hpairs
  obtain ⟨start, rest, rfl, hstart, hrest⟩ := List.filterMap_eq_append_iff.1 hpairs
  obtain ⟨between, path, later, rfl, hbetween, hpath, -⟩ := List.filterMap_eq_cons_iff.1 hrest
  refine ⟨start ++ between, path, later, (List.append_assoc _ _ _).symm, hpath, ?_⟩
  rw [World.pairs, List.filterMap_append, List.filterMap_eq_nil_iff.2 hbetween,
    List.append_nil]
  exact hstart

/-- A sweep that has just come to the tags of a file: the files up to this one are
consumed, and the counts are theirs. -/
structure AtYield (w : World) (extensions consumed : List String) (s : Sweep) : Prop where
  last_eq : ∃ pair, s.tagged.getLast? = some pair ∧ consumed.getLast? = some pair.1
  tagged_eq : s.tagged = w.pairs extensions consumed
  handled_eq : s.stats.processed + s.stats.failed = consumed.length
  tags_eq : s.stats.tags = s.tags.length

/-- At every file with tags the counts are those of the files up to it. -/
theorem exists_atYield
    (hrows : w.RowsWithin)
    (settings : Settings)
    (files : List String)
    {n : Nat}
    (hn : n < (sweepFiles w settings none {} files).tagged.length) :
    ∃ consumed rest, files = consumed ++ rest ∧
      AtYield w settings.extensions consumed
        (sweepFiles w settings (some (n + 1)) {} files) ∧
      (sweepFiles w settings (some (n + 1)) {} files).tagged =
        (sweepFiles w settings none {} files).tagged.take (n + 1) := by
  obtain ⟨passed, rest, hfiles, hpassed, htagged⟩ :=
    exists_passed_tagged hrows settings {} files
  obtain ⟨earlier, path, later, rfl, hpath, hearlier⟩ := exists_nth_pair htagged.symm hn
  have hlength : (w.pairs settings.extensions earlier).length = n := by
    rw [hearlier, List.length_take, Nat.min_eq_left (Nat.le_of_lt hn)]
  have hsplit : files = earlier ++ path :: (later ++ rest) := by
    rw [hfiles, List.append_assoc, List.cons_append]
  have hresult := result_sweepFiles_of_limit hrows
    (fun file hfile => hpassed file (List.mem_append_left _ hfile)) hpath {} (later ++ rest)
  rw [hlength, ← hsplit] at hresult
  obtain ⟨hyielded, hstats, -⟩ := Sweep.result_eq_iff.1 hresult
  have hcounts := counts_foldl w settings.extensions (earlier ++ [path]) {}
  refine ⟨earlier ++ [path], later ++ rest, ?_, ⟨?_, hyielded, ?_, ?_⟩, ?_⟩
  · rw [hsplit, List.append_assoc, List.singleton_append]
  · rw [hyielded, pairs_concat hpath]
    exact ⟨_, List.getLast?_concat, by rw [List.getLast?_concat, fst_of_pair? hpath]⟩
  · rw [hstats]
    simpa using hcounts.handled_eq
  · rw [hstats, Sweep.tags, hyielded]
    simpa using hcounts.tags_eq
  · rw [hyielded, pairs_concat hpath, hearlier, List.take_append_getElem]

theorem AtYield.after
    {extensions consumed : List String} {s : Sweep}
    (h : AtYield w extensions consumed s)
    (records : List Log.Record) :
    AtYield w extensions consumed (s.after records) :=
  ⟨h.last_eq, h.tagged_eq, h.handled_eq, h.tags_eq⟩

end Yielding

section Modes

/-- Settings under which a sweep goes on after failures. -/
def going (settings : Settings) : Settings :=
  { settings with continueOnError := true }

theorem sweep_eq_after
    (w : World)
    (settings : Settings)
    (limit : Option Nat)
    (hlimit : limit ≠ some 0)
    (before : Stats)
    (paths : List String) :
    sweep w settings limit before paths =
      (sweepFiles w settings limit before (w.expanded settings paths)).after
        (expand w settings paths).notes := by
  simp only [sweep, if_neg hlimit, expand_outcome]

/-- A sweep that has stopped at a failure, beside one that has gone on: it came to the tags
of the files before, and the failure is the only one. -/
structure StoppedAt (w : World) (extensions earlier : List String) (failure : Failure)
    (stopped whole : Sweep) : Prop where
  tagged_eq : stopped.tagged = w.pairs extensions earlier
  tagged_prefix : stopped.tagged <+: whole.tagged
  outcome_eq : stopped.outcome = .error failure
  failed_eq : stopped.stats.failed = 1
  processed_eq : stopped.stats.processed = stopped.tagged.length
  tags_eq : stopped.stats.tags = stopped.tags.length

variable {w : World}

theorem exists_pair?
    {extensions : List String} {path : String} {tags : List Tag}
    (h : (tagOne w extensions path).outcome = .ok tags) :
    ∃ pair, w.pair? extensions path = some pair :=
  ⟨(path, tags), by rw [World.pair?, h]; rfl⟩

theorem length_pairs_of_ok
    {extensions files : List String}
    (h : ∀ file ∈ files, ∃ tags, (tagOne w extensions file).outcome = .ok tags) :
    (w.pairs extensions files).length = files.length := by
  rw [World.pairs, List.length_filterMap_eq_countP, List.countP_eq_length]
  intro file hfile
  obtain ⟨tags, htags⟩ := h file hfile
  obtain ⟨pair, hpair⟩ := exists_pair? htags
  rw [hpair]
  rfl

/-- A sweep that goes on comes to the tags of all files that have any. -/
theorem result_sweepFiles_going
    (hrows : w.RowsWithin)
    (settings : Settings)
    (files : List String) :
    (sweepFiles w (going settings) none {} files).result =
      (w.pairs settings.extensions files,
        files.foldl (w.count settings.extensions) {}, .ok ()) := by
  have hpassed : ∀ file ∈ files, w.Passes (going settings) file := fun _ _ => .inl rfl
  exact result_sweepFiles_of_passed hrows hpassed {}

theorem passes_stopping_of_ok
    {settings : Settings} {files : List String}
    (h : ∀ file ∈ files, ∃ tags, (tagOne w settings.extensions file).outcome = .ok tags) :
    ∀ file ∈ files, w.Passes (stopping settings) file := by
  intro file hfile
  obtain ⟨tags, htags⟩ := h file hfile
  exact .inr (exists_pair? htags)

theorem stoppedAt_of_failure
    (hrows : w.RowsWithin)
    (settings : Settings)
    {earlier : List String} {path : String} {failure : Failure}
    (hearlier : ∀ file ∈ earlier,
      ∃ tags, (tagOne w settings.extensions file).outcome = .ok tags)
    (hpath : (tagOne w settings.extensions path).outcome = .error failure)
    (later : List String) :
    StoppedAt w settings.extensions earlier failure
      (sweepFiles w (stopping settings) none {} (earlier ++ path :: later))
      (sweepFiles w (going settings) none {} (earlier ++ path :: later)) := by
  have hresult :
      (sweepFiles w (stopping settings) none {} (earlier ++ path :: later)).result =
        (w.pairs settings.extensions earlier,
          (earlier.foldl (w.count settings.extensions) {}).addFailure, .error failure) :=
    result_sweepFiles_of_failure hrows rfl (passes_stopping_of_ok hearlier) hpath {} later
  obtain ⟨htagged, hstats, houtcome⟩ := Sweep.result_eq_iff.1 hresult
  obtain ⟨hwhole, -, -⟩ := Sweep.result_eq_iff.1
    (result_sweepFiles_going hrows settings (earlier ++ path :: later))
  have hcounts := counts_foldl w settings.extensions earlier {}
  have hprocessed := hcounts.processed_eq.trans (Nat.zero_add _)
  have hhandled := hcounts.handled_eq.trans (Nat.zero_add _)
  have hlength := length_pairs_of_ok hearlier
  refine ⟨htagged, ?_, houtcome, ?_, ?_, ?_⟩
  · rw [htagged, hwhole, World.pairs, World.pairs, List.filterMap_append]
    exact List.prefix_append _ _
  · have hnone : (earlier.foldl (w.count settings.extensions) {}).failed = 0 := by
      omega
    rw [hstats, Stats.addFailure, hnone]
  · rw [hstats, htagged]
    exact hprocessed
  · rw [hstats, Sweep.tags, htagged]
    exact hcounts.tags_eq.trans (Nat.zero_add _)

theorem exists_atYield_sweep
    (hrows : w.RowsWithin)
    (settings : Settings)
    (paths : List String)
    {n : Nat}
    (hn : n < (sweep w settings none {} paths).tagged.length) :
    ∃ consumed rest, w.expanded settings paths = consumed ++ rest ∧
      AtYield w settings.extensions consumed (sweep w settings (some (n + 1)) {} paths) ∧
      (sweep w settings (some (n + 1)) {} paths).tagged =
        (sweep w settings none {} paths).tagged.take (n + 1) := by
  have hsome : some (n + 1) ≠ some 0 := by simp
  rw [sweep_eq_after w settings none (Option.some_ne_none 0).symm] at hn ⊢
  rw [sweep_eq_after w settings _ hsome]
  obtain ⟨consumed, rest, hfiles, hyield, htake⟩ :=
    exists_atYield hrows settings (w.expanded settings paths) hn
  exact ⟨consumed, rest, hfiles, hyield.after _, htake⟩

/-- A sweep that stops at failures is the start of the one that goes on: it comes to the
tags of the files before the first failure and ends with this very failure, and if there is
none, the two come to the same.  In both, whenever the tags of a file are there, the counts
are those of the files consumed so far. -/
theorem failFast_sweep_is_prefix
    (w : World)
    (hrows : w.RowsWithin)
    (settings : Settings)
    (paths : List String) :
    let stopped := sweep w (stopping settings) none {} paths
    let whole := sweep w (going settings) none {} paths
    ∃ files,
      (expand w settings paths).outcome = .ok files ∧
      whole.tagged = w.pairs settings.extensions files ∧ whole.outcome = .ok () ∧
      (∀ earlier path later failure,
        files = earlier ++ path :: later →
        (∀ file ∈ earlier,
          ∃ tags, (tagOne w settings.extensions file).outcome = .ok tags) →
        (tagOne w settings.extensions path).outcome = .error failure →
        StoppedAt w settings.extensions earlier failure stopped whole) ∧
      ((∀ file ∈ files, ∃ tags, (tagOne w settings.extensions file).outcome = .ok tags) →
        stopped.tagged = whole.tagged ∧ stopped.stats = whole.stats ∧
          stopped.outcome = .ok ()) ∧
      ∀ mode ∈ [stopping settings, going settings],
        ∀ n < (sweep w mode none {} paths).tagged.length,
          ∃ consumed rest, files = consumed ++ rest ∧
            AtYield w settings.extensions consumed (sweep w mode (some (n + 1)) {} paths) ∧
            (sweep w mode (some (n + 1)) {} paths).tagged =
              (sweep w mode none {} paths).tagged.take (n + 1) := by
  intro stopped whole
  obtain ⟨hwhole, hstats, hend⟩ := Sweep.result_eq_iff.1
    (result_sweepFiles_going hrows settings (w.expanded settings paths))
  have hstopped : stopped = (sweepFiles w (stopping settings) none {}
      (w.expanded settings paths)).after (expand w (stopping settings) paths).notes :=
    sweep_eq_after w (stopping settings) none (Option.some_ne_none 0).symm {} paths
  have hgoing : whole = (sweepFiles w (going settings) none {}
      (w.expanded settings paths)).after (expand w (going settings) paths).notes :=
    sweep_eq_after w (going settings) none (Option.some_ne_none 0).symm {} paths
  refine ⟨w.expanded settings paths, expand_outcome w settings paths, ?_, ?_, ?_, ?_, ?_⟩
  · rw [hgoing]
    exact hwhole
  · rw [hgoing]
    exact hend
  · intro earlier path later failure hfiles hearlier hpath
    rw [hstopped, hgoing, hfiles]
    obtain ⟨h₁, h₂, h₃, h₄, h₅, h₆⟩ := stoppedAt_of_failure hrows settings hearlier hpath later
    exact ⟨h₁, h₂, h₃, h₄, h₅, h₆⟩
  · intro hall
    obtain ⟨htagged', hstats', hend'⟩ := Sweep.result_eq_iff.1
      (result_sweepFiles_of_passed hrows (passes_stopping_of_ok hall) {})
    rw [hstopped, hgoing]
    exact ⟨htagged'.trans hwhole.symm, hstats'.trans hstats.symm, hend'⟩
  · intro mode hmode n hn
    rw [List.mem_pair] at hmode
    rcases hmode with rfl | rfl
    · exact exists_atYield_sweep hrows (stopping settings) paths hn
    · exact exists_atYield_sweep hrows (going settings) paths hn

theorem Sample.rowsWithin_world :
    Sample.world.RowsWithin :=
  fun octets => (Sample.within_world octets).rowWithin

/-- With a file that is gone between two sources, the sweep that stops comes to the first
source, and the one that goes on comes to both. -/
theorem failFast_sweep_is_prefix_sample :
    let paths := ["M.hs", "gone.hs", "M.hs"]
    let whole := sweep Sample.world (going {}) none {} paths
    Sample.world.RowsWithin ∧
      StoppedAt Sample.world ({} : Settings).extensions ["M.hs"] (.missing "gone.hs")
        (sweep Sample.world (stopping {}) none {} paths) whole ∧
      whole.tagged.length = 2 ∧
      ∃ consumed rest, paths = consumed ++ rest ∧
        AtYield Sample.world ({} : Settings).extensions consumed
          (sweep Sample.world (going {}) (some 2) {} paths) := by
  intro paths whole
  have hsource :
      ∃ tags, (tagOne Sample.world ({} : Settings).extensions "M.hs").outcome = .ok tags := by
    obtain ⟨tags, htags⟩ := exists_tagsAt (Sample.within_world Tag.Sample.source.octets) "M.hs"
    refine ⟨tags, ?_⟩
    rw [tagOne_outcome, tagFile_of_source (by decide +kernel) htags]
    rfl
  have hgone : (tagOne Sample.world ({} : Settings).extensions "gone.hs").outcome =
      .error (.missing "gone.hs") := by
    have hfile : Files.isFile Sample.world.files "gone.hs" = false := by decide +kernel
    rw [tagOne_outcome, tagFile_outcome, if_pos hfile]
    rfl
  obtain ⟨files, hexpand, htagged, -, hstopped, -, hyields⟩ :=
    failFast_sweep_is_prefix Sample.world Sample.rowsWithin_world {} paths
  have hfiles : files = paths := by
    rw [expand_outcome] at hexpand
    rw [← Except.ok.inj hexpand]
    decide +kernel
  subst hfiles
  have hearlier : ∀ file ∈ ["M.hs"],
      ∃ tags, (tagOne Sample.world ({} : Settings).extensions file).outcome = .ok tags :=
    List.forall_mem_singleton.2 hsource
  have hlength : whole.tagged.length = 2 := by
    obtain ⟨tags, htags⟩ := hsource
    obtain ⟨pair, hpair⟩ := exists_pair? htags
    have hnone : Sample.world.pair? ({} : Settings).extensions "gone.hs" = none := by
      rw [World.pair?, hgone]
      rfl
    have hpairs : Sample.world.pairs ({} : Settings).extensions ["M.hs", "gone.hs", "M.hs"] =
        [pair, pair] := by
      rw [pairs_cons_of_some hpair, pairs_cons_of_none hnone, pairs_cons_of_some hpair]
      rfl
    exact congrArg List.length (htagged.trans hpairs)
  obtain ⟨consumed, rest, hsplit, hyield, -⟩ :=
    hyields (going {}) (by simp) 1 (by rw [hlength]; decide)
  exact ⟨Sample.rowsWithin_world,
    hstopped ["M.hs"] "gone.hs" ["M.hs"] _ rfl hearlier hgone, hlength, consumed, rest, hsplit,
    hyield⟩

end Modes

end Run
end HaskellTags
