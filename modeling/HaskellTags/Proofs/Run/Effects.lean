import HaskellTags.Proofs.Run.Strictness
import HaskellTags.Proofs.TagsFile.JsonLines

/-!
# What a run changes

A run that fails changes nothing, and a run that ends well changes its output
alone.  All tags come from the files as they were before: a run looks at them
first, and writes when it has nothing left to read.  So the output may be one of
its own inputs.

A run may also not end at all, with a fault that it does not expect.  Then it has
no exit code, and nothing is said here.
-/

namespace HaskellTags
namespace Run

open CommandLine Text

section Failing

/-- Why a run fails: its settings are refused, its paths cannot be tagged, or no
file among them was processed. -/
inductive Fails (w : World) (env : Environment) (a : Arguments) : Prop
  | refused (refusal : Settings.Refusal)
      (hsettings :
        (resolveSettings w.yaml w.files env a).outcome = .error (.load (.refused refusal)))
  | untagged (settings : Settings) (failure : Failure)
      (hsettings : (resolveSettings w.yaml w.files env a).outcome = .ok settings)
      (htags : (tagPaths w settings a.paths).outcome = .error failure)
  | unprocessed (settings : Settings) (tags : List Tag) (stats : Stats)
      (hsettings : (resolveSettings w.yaml w.files env a).outcome = .ok settings)
      (htags : (tagPaths w settings a.paths).outcome = .ok (tags, stats))
      (hnone : stats.processed = 0)

/-- A run that fails has exit code 1 and does nothing else. -/
theorem effect_of_fails
    {w : World} {env : Environment} {a : Arguments}
    (hfails : Fails w env a) :
    (runArguments w env a).effect = (.ok 1, w.files, "") := by
  cases hfails with
  | refused refusal hsettings =>
      simp only [runArguments, hsettings, Ending.effect_after]
      rfl
  | untagged settings failure hsettings htags =>
      rw [effect_runArguments_of_settings hsettings]
      simp only [runWith, htags, Ending.effect_after]
      rfl
  | unprocessed settings tags stats hsettings htags hnone =>
      rw [effect_runArguments_of_settings hsettings]
      simp only [runWith, htags, if_pos hnone, Ending.effect_after]
      rfl

/-- What a run with settings and tags does is to write the tags. -/
theorem effect_runArguments_of_tags
    {w : World} {env : Environment} {a : Arguments} {settings : Settings}
    {tags : List Tag} {stats : Stats}
    (hsettings : (resolveSettings w.yaml w.files env a).outcome = .ok settings)
    (htags : (tagPaths w settings a.paths).outcome = .ok (tags, stats))
    (hsome : stats.processed ≠ 0) :
    (runArguments w env a).effect = (writeTags w a settings tags stats).effect := by
  rw [effect_runArguments_of_settings hsettings]
  simp only [runWith, htags, if_neg hsome, Ending.effect_after]

/-- A run with an exit code that does not fail has tags, and writes them. -/
theorem exists_tags_of_not_fails
    {w : World} {env : Environment} {a : Arguments} {code : Nat}
    (hend : (runArguments w env a).outcome = .ok code)
    (hfails : ¬ Fails w env a) :
    ∃ settings tags stats,
      (resolveSettings w.yaml w.files env a).outcome = .ok settings ∧
      (tagPaths w settings a.paths).outcome = .ok (tags, stats) ∧
      (runArguments w env a).effect = (writeTags w a settings tags stats).effect := by
  cases hsettings : (resolveSettings w.yaml w.files env a).outcome with
  | error fault =>
      simp only [runArguments, hsettings] at hend
      cases fault with
      | struckPath =>
          cases hend
      | load fault =>
          cases fault with
          | refused refusal =>
              exact absurd (.refused refusal hsettings) hfails
          | _ =>
              cases hend
  | ok settings =>
      cases htags : (tagPaths w settings a.paths).outcome with
      | error failure =>
          exact absurd (.untagged settings failure hsettings htags) hfails
      | ok result =>
          obtain ⟨tags, stats⟩ := result
          have hsome : stats.processed ≠ 0 := fun hnone =>
            hfails (.unprocessed settings tags stats hsettings htags hnone)
          exact
            ⟨settings, tags, stats, rfl, htags,
              effect_runArguments_of_tags hsettings htags hsome⟩

end Failing

section Writing

/-- The lines that settings ask for. -/
def outputLines (settings : Settings) (tags : List Tag) : List String :=
  if settings.format = .jsonl then TagsFile.jsonLines tags
  else TagsFile.lines settings.sortOutput settings.emitHeader tags

variable {w : World} {path : String} {settings : Settings} {tags : List Tag}

theorem format_eq_ok
    (hlines : ∀ t ∈ tags, Decimal.isWritable t.line = true)
    (sorted withHeader : Bool) :
    TagsFile.format sorted withHeader tags = .ok (TagsFile.lines sorted withHeader tags) :=
  if_pos (List.all_eq_true.2 hlines)

/-- Tags whose lines can all be written are written as the lines of their format. -/
theorem writeFormatted_eq_writeLines
    (w : World)
    (path : String)
    (settings : Settings)
    (hlines : ∀ t ∈ tags, Decimal.isWritable t.line = true) :
    writeFormatted w path settings tags =
      writeLines w.workingDirectory w.files path (outputLines settings tags) := by
  unfold writeFormatted outputLines
  cases settings.format with
  | jsonl =>
      exact TagsFile.writeJson_eq_writeLines w.workingDirectory w.files path hlines
  | _ =>
      simp only [format_eq_ok hlines]
      rfl

/-- The writing ends well in no format unless the lines of all tags can be written. -/
theorem isWritable_of_writeFormatted
    {count : Nat}
    (hok : (writeFormatted w path settings tags).outcome = .ok count) :
    ∀ t ∈ tags, Decimal.isWritable t.line = true := by
  by_contra hbeyond
  have hformat : TagsFile.format settings.sortOutput settings.emitHeader tags =
      .error .writing :=
    if_neg (mt List.all_eq_true.1 hbeyond)
  unfold writeFormatted at hok
  cases hsettings : settings.format with
  | jsonl =>
      rw [hsettings] at hok
      exact hbeyond (TagsFile.isWithin_of_writeJson hok)
  | _ =>
      simp only [hsettings, hformat] at hok
      cases hok

end Writing

section Runs

/-- If the writing of tags has an exit code, their lines were written at a path. -/
theorem exists_writeLines_of_writeTags
    {w : World} {a : Arguments} {settings : Settings} {tags : List Tag} {stats : Stats}
    {code : Nat}
    (hend : (writeTags w a settings tags stats).outcome = .ok code) :
    ∃ path count,
      a.output = .text path ∧
      (∀ t ∈ tags, Decimal.isWritable t.line = true) ∧
      (writeLines w.workingDirectory w.files path (outputLines settings tags)).outcome =
        .ok count := by
  unfold writeTags at hend
  cases houtput : a.output with
  | struck =>
      rw [houtput] at hend
      cases hend
  | text path =>
      simp only [houtput] at hend
      cases hwritten : (writeFormatted w path settings tags).outcome with
      | error e =>
          simp only [hwritten] at hend
          cases hend
      | ok count =>
          have hlines := isWritable_of_writeFormatted hwritten
          rw [writeFormatted_eq_writeLines w path settings hlines] at hwritten
          exact ⟨path, count, rfl, hlines, hwritten⟩

theorem effect_writeTags_of_writeLines
    {w : World} {a : Arguments} {settings : Settings} {tags : List Tag}
    {path : String} {count : Nat}
    (houtput : a.output = .text path)
    (hlines : ∀ t ∈ tags, Decimal.isWritable t.line = true)
    (hwritten :
      (writeLines w.workingDirectory w.files path (outputLines settings tags)).outcome =
        .ok count)
    (stats : Stats) :
    (writeTags w a settings tags stats).effect =
      (.ok 0,
        (writeLines w.workingDirectory w.files path (outputLines settings tags)).files,
        (writeLines w.workingDirectory w.files path (outputLines settings tags)).printed) := by
  simp only [writeTags, houtput, writeFormatted_eq_writeLines w path settings hlines, hwritten]
  rfl

/-- What the writing of tags has come to if there is an exit code. -/
theorem delivered_of_writeTags
    {w : World} {a : Arguments} {settings : Settings} {tags : List Tag} {stats : Stats}
    {code : Nat}
    (hend : (writeTags w a settings tags stats).outcome = .ok code) :
    code = 0 ∧
      ∃ path, a.output = .text path ∧
        Delivered w.files (writeTags w a settings tags stats).files
          (writeTags w a settings tags stats).printed path
          (TagsFile.text (outputLines settings tags)) := by
  obtain ⟨path, count, houtput, hlines, hwritten⟩ := exists_writeLines_of_writeTags hend
  have heffect := effect_writeTags_of_writeLines houtput hlines hwritten stats
  simp only [Ending.effect, Prod.mk.injEq] at heffect
  obtain ⟨houtcome, hfiles, hprinted⟩ := heffect
  refine ⟨Except.ok.inj (hend.symm.trans houtcome), path, houtput, ?_⟩
  rw [hfiles, hprinted]
  exact delivered_of_writeLines hwritten

/-- A run with an exit code either fails with code 1, leaves all files as they were
and prints nothing, or it ends with code 0 and has delivered the tags that the files
before it have: as JSON lines, or as the lines of a tags file. -/
theorem run_changes_output_alone
    (w : World)
    (env : Environment)
    (a : Arguments)
    (code : Nat)
    (hend : (runArguments w env a).outcome = .ok code) :
    let ending := runArguments w env a
    (code = 1 ∧ Fails w env a ∧ ending.files = w.files ∧ ending.printed = "") ∨
      (code = 0 ∧ ¬ Fails w env a ∧
        ∃ settings tags stats path,
          (resolveSettings w.yaml w.files env a).outcome = .ok settings ∧
          (tagPaths w settings a.paths).outcome = .ok (tags, stats) ∧
          a.output = .text path ∧
          Delivered w.files ending.files ending.printed path
            (TagsFile.text
              (if settings.format = .jsonl then TagsFile.jsonLines tags
              else TagsFile.lines settings.sortOutput settings.emitHeader tags))) := by
  intro ending
  by_cases hfails : Fails w env a
  · have heffect := effect_of_fails hfails
    simp only [Ending.effect, Prod.mk.injEq] at heffect
    obtain ⟨houtcome, hfiles, hprinted⟩ := heffect
    rw [hend, Except.ok.injEq] at houtcome
    exact .inl ⟨houtcome, hfails, hfiles, hprinted⟩
  · obtain ⟨settings, tags, stats, hsettings, htags, heffect⟩ :=
      exists_tags_of_not_fails hend hfails
    simp only [Ending.effect, Prod.mk.injEq] at heffect
    obtain ⟨houtcome, hfiles, hprinted⟩ := heffect
    obtain ⟨hcode, path, hpath, hdelivered⟩ :=
      delivered_of_writeTags (houtcome.symm.trans hend)
    rw [← hfiles, ← hprinted] at hdelivered
    exact .inr ⟨hcode, hfails, settings, tags, stats, path, hsettings, htags, hpath,
      hdelivered⟩

namespace Sample

/-- Arguments by which the output takes the place of the only input. -/
def overwriting : Arguments :=
  { paths := ["M.hs"], output := .text "./M.hs", noSort := true }

/-- The tags of the only input. -/
def foundTags : List Tag :=
  let pattern := "\x7b-\uFFFD-\x7d data T = (:+) Int"
  [⟨"M", "M.hs", "module M where", .header, 1, none, none, none⟩,
    ⟨"A", "M.hs", "import A", .importing, 2, none, none, some .isPublic⟩,
    ⟨"T", "M.hs", pattern, .data, 3, none, none, none⟩,
    ⟨":+", "M.hs", pattern, .constructor, 3, some ⟨.data, "T"⟩, none, none⟩]

/-- The tags file of these tags. -/
def foundText : String :=
  "!_TAG_FILE_FORMAT\t2\t//\n" ++
    "!_TAG_FILE_SORTED\t0\t//\n" ++
    "!_TAG_PROGRAM_NAME\thstags\t//\n" ++
    "M\tM.hs\t/^module M where$/;\"\tm\tline:1\n" ++
    "A\tM.hs\t/^import A$/;\"\ti\tline:2\taccess:public\n" ++
    "T\tM.hs\t/^\x7b-\uFFFD-\x7d data T = (:+) Int$/;\"\td\tline:3\n" ++
    ":+\tM.hs\t/^\x7b-\uFFFD-\x7d data T = (:+) Int$/;\"\tc\tline:3\tdata:T\n"

end Sample

theorem run_changes_output_alone_sample :
    let ending := runArguments Sample.world [] Sample.overwriting
    ending.outcome = .ok 0 ∧ ending.printed = "" ∧
      Files.Written Sample.world.files.root ending.files.root ["work", "M.hs"]
        (octetsOf Sample.foundText) ∧
      Files.read ending.files "./M.hs" = .ok (octetsOf Sample.foundText) := by
  intro ending
  have hend : ending.outcome = .ok 0 :=
    Outcome.toOption_eq_some_iff.1 (by decide +kernel)
  have hnames : Files.namesOf Sample.world.files "./M.hs" = ["work", "M.hs"] := by
    decide +kernel
  have hunsorted :
      (resolveSettings Sample.world.yaml Sample.world.files [] Sample.overwriting).outcome =
        .ok { sortOutput := false } :=
    Outcome.toOption_eq_some_iff.1 (by decide +kernel)
  have hfound :
      (tagPaths Sample.world { sortOutput := false } ["M.hs"]).outcome =
        .ok (Sample.foundTags, { processed := 1, tags := 4 }) :=
    Outcome.toOption_eq_some_iff.1 (by decide +kernel)
  have htext : TagsFile.text (TagsFile.lines false true Sample.foundTags) = Sample.foundText := by
    decide +kernel
  rcases run_changes_output_alone Sample.world [] Sample.overwriting 0 hend with
    ⟨hcode, -⟩ | ⟨-, -, settings, tags, stats, path, hsettings, htags, hpath, hdelivered⟩
  · cases hcode
  · cases hpath
    cases hunsorted.symm.trans hsettings
    cases hfound.symm.trans htags
    rw [if_neg (by decide), htext, Delivered, if_neg (by decide), hnames] at hdelivered
    exact ⟨hend, hdelivered.1, hdelivered.2.2⟩

end Runs

end Run
end HaskellTags
