import HaskellTags.Proofs.Run.Effects
import HaskellTags.Proofs.TagsFile.Lines
import HaskellTags.Proofs.TagsFile.Order

/-!
# One run in two formats

The format of the output is looked at when the tags are written, and not before.
So a run finds the same tags whatever its format, and ends well in one format if
it does in another.

But tags are put in order by the lines of a tags file alone.  The JSON format
lists them as they were found, also where the settings ask for sorted output, and
the two formats have one order only if there is nothing to sort.
-/

namespace HaskellTags
namespace Run

open CommandLine TagsFile Text

section Settings

/-- Settings with another format. -/
def inFormat (format : Format) (settings : Settings) : Settings :=
  { settings with format := format }

/-- A format on the command line replaces the format of the settings, and nothing
else. -/
theorem resolveSettings_with_format
    (yaml : Yaml.Reader)
    (files : Files.Entry)
    (env : Environment)
    (a : Arguments)
    (format : Format) :
    (resolveSettings yaml files env { a with format := some format }).outcome =
      (resolveSettings yaml files env a).outcome.map (inFormat format) := by
  have hpath : configPath { a with format := some format } = configPath a := rfl
  have hstrict : isStrict env { a with format := some format } = isStrict env a := rfl
  rw [resolveSettings_outcome, resolveSettings_outcome, hpath, hstrict]
  cases configPath a with
  | error fault =>
      rfl
  | ok path =>
      simp only [Outcome.ok_bind]
      cases (Settings.load yaml files env (isStrict env a) path).outcome with
      | error fault =>
          rfl
      | ok settings =>
          rfl

end Settings

section Sweeps

theorem sweepFiles_inFormat
    (w : World)
    (format : Format)
    (settings : Settings)
    (limit : Option Nat)
    (stats : Stats)
    (files : List String) :
    sweepFiles w (inFormat format settings) limit stats files =
      sweepFiles w settings limit stats files := by
  induction files generalizing limit stats with
  | nil =>
      rfl
  | cons path rest ih =>
      simp only [sweepFiles, ih]
      rfl

theorem tagPaths_inFormat
    (w : World)
    (format : Format)
    (settings : Settings)
    (paths : List String) :
    (tagPaths w (inFormat format settings) paths).outcome =
      (tagPaths w settings paths).outcome := by
  have hexpanded :
      w.expanded (inFormat format settings) paths = w.expanded settings paths := rfl
  rw [tagPaths_outcome, tagPaths_outcome, World.swept, World.swept, hexpanded,
    sweepFiles_inFormat]

end Sweeps

section Runs

/-- A run ends well and has delivered some lines, and nothing else has changed. -/
def Ending.Delivers (e : Ending) (before : Files.Entry) (path : String)
    (lines : List String) : Prop :=
  e.outcome = .ok 0 ∧ Delivered before e.files e.printed path (text lines)

/-- A run with settings and tags delivers the lines of the tags where they can be
written. -/
theorem delivers_of_tags
    {w : World} {env : Environment} {a : Arguments} {settings : Settings}
    {tags : List Tag} {stats : Stats} {path : String} {count : Nat}
    (hsettings : (resolveSettings w.yaml w.files env a).outcome = .ok settings)
    (htags : (tagPaths w settings a.paths).outcome = .ok (tags, stats))
    (hsome : stats.processed ≠ 0)
    (houtput : a.output = .text path)
    (hlines : ∀ t ∈ tags, Decimal.isWritable t.line = true)
    (hwritten :
      (writeLines w.workingDirectory w.files path (outputLines settings tags)).outcome =
        .ok count) :
    (runArguments w env a).Delivers w.files path (outputLines settings tags) := by
  have heffect := effect_runArguments_of_tags hsettings htags hsome
  rw [effect_writeTags_of_writeLines houtput hlines hwritten] at heffect
  simp only [Ending.effect, Prod.mk.injEq] at heffect
  obtain ⟨houtcome, hfiles, hprinted⟩ := heffect
  refine ⟨houtcome, ?_⟩
  rw [hfiles, hprinted]
  exact delivered_of_writeLines hwritten

/-- A run that ends well has tags, and would deliver these in any format. -/
theorem exists_delivers_inFormat
    {w : World} {env : Environment} {a : Arguments}
    (hend : (runArguments w env a).outcome = .ok 0) :
    ∃ settings tags stats path,
      (resolveSettings w.yaml w.files env a).outcome = .ok settings ∧
      (tagPaths w settings a.paths).outcome = .ok (tags, stats) ∧
      a.output = .text path ∧
      ∀ format,
        (runArguments w env { a with format := some format }).Delivers w.files path
          (outputLines (inFormat format settings) tags) := by
  have hfails : ¬ Fails w env a := by
    intro hfails
    have hcode := congrArg Prod.fst (effect_of_fails hfails)
    cases hend.symm.trans hcode
  obtain ⟨settings, tags, stats, hsettings, htags, heffect⟩ :=
    exists_tags_of_not_fails hend hfails
  have hsome : stats.processed ≠ 0 := fun hnone =>
    hfails (.unprocessed settings tags stats hsettings htags hnone)
  obtain ⟨path, count, houtput, hlines, hwritten⟩ :=
    exists_writeLines_of_writeTags ((congrArg Prod.fst heffect).symm.trans hend)
  refine ⟨settings, tags, stats, path, hsettings, htags, houtput, ?_⟩
  intro format
  have hsettings' :
      (resolveSettings w.yaml w.files env { a with format := some format }).outcome =
        .ok (inFormat format settings) := by
    rw [resolveSettings_with_format, hsettings]
    rfl
  have htags' :
      (tagPaths w (inFormat format settings) a.paths).outcome = .ok (tags, stats) := by
    rw [tagPaths_inFormat, htags]
  exact delivers_of_tags hsettings' htags' hsome houtput hlines
    (outcome_writeLines_of_ok hwritten (outputLines (inFormat format settings) tags))

/-- Arranging leaves tags alone if they are not to be sorted, or need no sorting. -/
theorem arranged_eq_self_iff
    {sorted : Bool} {tags : List Tag} :
    arranged sorted tags = tags ↔ sorted = false ∨ tags.Pairwise ByPlace := by
  cases sorted with
  | false =>
      simp [arranged]
  | true =>
      simp [arranged, sort_eq_self_iff]

/-- A run that ends well does so in both formats, with the same tags.  A tags file
lists them in the order that the settings ask for: sorted by name, file and line, or
as they were found.  The JSON format lists them as they were found, and that is the
order asked for exactly if sorting is off or has nothing to do. -/
theorem formats_order_alike_iff
    (w : World)
    (env : Environment)
    (a : Arguments)
    (hend : (runArguments w env a).outcome = .ok 0) :
    let inCtags := runArguments w env { a with format := some .ctags }
    let inJsonl := runArguments w env { a with format := some .jsonl }
    ∃ settings tags stats path,
      (resolveSettings w.yaml w.files env a).outcome = .ok settings ∧
      (tagPaths w settings a.paths).outcome = .ok (tags, stats) ∧
      a.output = .text path ∧
      ∃ ordered : List Tag,
        ordered.Perm tags ∧
        (settings.sortOutput = true → ordered.Pairwise ByPlace) ∧
        (settings.sortOutput = false → ordered = tags) ∧
        inCtags.Delivers w.files path
          ((if settings.emitHeader then header settings.sortOutput else []) ++
            ordered.map Tag.render) ∧
        inJsonl.Delivers w.files path (jsonLines tags) ∧
        (inJsonl.Delivers w.files path (jsonLines ordered) ↔
          settings.sortOutput = false ∨ tags.Pairwise ByPlace) := by
  intro inCtags inJsonl
  obtain ⟨settings, tags, stats, path, hsettings, htags, hpath, hdelivers⟩ :=
    exists_delivers_inFormat hend
  have hjsonl : inJsonl.Delivers w.files path (jsonLines tags) := hdelivers .jsonl
  refine ⟨settings, tags, stats, path, hsettings, htags, hpath,
    arranged settings.sortOutput tags, arranged_perm _ tags, ?_, ?_, hdelivers .ctags,
    hjsonl, ?_⟩
  · intro hsorted
    rw [hsorted]
    exact sort_pairwise_byPlace tags
  · intro hunsorted
    exact arranged_eq_self_iff.2 (.inl hunsorted)
  · rw [← arranged_eq_self_iff]
    constructor
    · intro hordered
      exact eq_of_text_jsonLines_eq (hordered.2.text_eq hjsonl.2)
    · intro hordered
      rw [hordered]
      exact hjsonl

namespace Sample

/-- The node of a signature such as `b :: T`, on a row by itself. -/
def signatureNode (row : Tree.Row) : Tree.Node :=
  row.node "signature" none 0 6 [
    row.node "variable" (some "name") 0 1 [],
    row.token "::" 2,
    row.node "name" (some "type") 5 6 []]

/-- A world with one source of two signatures, the later name first. -/
def disordered : World :=
  let octets := octetsOf "b :: T\na :: T"
  let first : Tree.Row := ⟨0, 0⟩
  let second : Tree.Row := ⟨1, 7⟩
  let tree :=
    first.across second "haskell" none 0 6 [
      first.across second "declarations" (some "declarations") 0 6 [
        signatureNode first, signatureNode second]]
  ((World.empty "/work").put "M.hs" (.file octets)).learn octets ⟨tree, false, none⟩

/-- The tag of such a signature. -/
def signatureTag (name : String) (line : Int) : Tag :=
  ⟨name, "M.hs", name ++ " :: T", .function, line, none, some "T", none⟩

def printing : Arguments :=
  { paths := ["M.hs"], output := .text standardOutput }

end Sample

theorem formats_order_alike_iff_disordered :
    (runArguments Sample.disordered [] Sample.printing).outcome = .ok 0 ∧
      ∃ settings tags stats ordered,
        (tagPaths Sample.disordered settings ["M.hs"]).outcome = .ok (tags, stats) ∧
        ordered.Perm tags ∧
        ((runArguments Sample.disordered []
              { Sample.printing with format := some .jsonl }).printed =
            text (jsonLines ordered) ↔
          settings.sortOutput = false ∨ tags.Pairwise ByPlace) := by
  have hend : (runArguments Sample.disordered [] Sample.printing).outcome = .ok 0 :=
    Outcome.toOption_eq_some_iff.1 (by decide +kernel)
  obtain ⟨settings, tags, stats, path, -, htags, hpath, ordered, hperm, -, -, -, hjsonl, hiff⟩ :=
    formats_order_alike_iff Sample.disordered [] Sample.printing hend
  cases hpath
  refine ⟨hend, settings, tags, stats, ordered, htags, hperm, ?_⟩
  rw [← hiff]
  constructor
  · intro hprinted
    exact ⟨hjsonl.1, hjsonl.2.1, hprinted⟩
  · intro hdelivers
    exact hdelivers.2.2

/-- Of two names that are out of order, the tags file has them sorted and the JSON
format has them as they are. -/
theorem disordered_formats_differ :
    let inCtags :=
      runArguments Sample.disordered [] { Sample.printing with format := some .ctags }
    let inJsonl :=
      runArguments Sample.disordered [] { Sample.printing with format := some .jsonl }
    let a := Sample.signatureTag "a" 2
    let b := Sample.signatureTag "b" 1
    inCtags.outcome = .ok 0 ∧ inJsonl.outcome = .ok 0 ∧
      inCtags.printed = text (header true ++ [a, b].map Tag.render) ∧
      inJsonl.printed = text (jsonLines [b, a]) ∧
      inJsonl.printed ≠ text (jsonLines [a, b]) := by
  intro inCtags inJsonl a b
  have hsettings :
      (resolveSettings Sample.disordered.yaml Sample.disordered.files []
        { Sample.printing with format := some .ctags }).outcome = .ok {} :=
    Outcome.toOption_eq_some_iff.1 (by decide +kernel)
  have htags :
      (tagPaths Sample.disordered {} ["M.hs"]).outcome =
        .ok ([b, a], { processed := 1, tags := 2 }) :=
    Outcome.toOption_eq_some_iff.1 (by decide +kernel)
  have hctags :
      inCtags.Delivers Sample.disordered.files standardOutput (lines true true [b, a]) :=
    delivers_of_tags hsettings htags (by decide) rfl (by decide) rfl
  have hnot : atMost b a = false := by
    decide +kernel
  have hsort : sort [b, a] = [a, b] := by
    simp [sort, List.mergeSort, hnot]
  obtain ⟨houtcome, -, hprinted⟩ := hctags
  refine ⟨houtcome, ?_, ?_, ?_, ?_⟩
  · exact Outcome.toOption_eq_some_iff.1 (by decide +kernel)
  · rw [hprinted, ← hsort]
    rfl
  · decide +kernel
  · decide +kernel

end Runs

end Run
end HaskellTags
