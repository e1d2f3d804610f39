import HaskellTags.Proofs.Run.Sweeping
import HaskellTags.Proofs.Settings.Strictness
import HaskellTags.Run.Program

/-!
# Strict and lenient runs

A strict run reads its settings strictly and stops at the first file that cannot
be tagged.  If it ends well, nothing of this has happened: the settings are those
of the lenient run, save that failures end the sweep, and there was no failure.
So the lenient run on the same files does the same.
-/

namespace HaskellTags
namespace Run

open CommandLine

section Settings

/-- Settings under which the first failure ends a sweep. -/
def stopping (settings : Settings) : Settings :=
  { settings with continueOnError := false }

/-- The path of the settings file that the command line names. -/
def configPath (a : Arguments) : Except SettingsFault (Option String) :=
  match a.config with
  | none => .ok none
  | some (.text path) => .ok (some path)
  | some .struck => .error .struckPath

theorem resolveSettings_outcome
    (yaml : Yaml.Reader)
    (files : Files.Entry)
    (env : Environment)
    (a : Arguments) :
    (resolveSettings yaml files env a).outcome =
      configPath a >>= fun path =>
        (Settings.load yaml files env (isStrict env a) path).outcome.mapError
            SettingsFault.load >>= fun settings =>
          .ok (settings.choose (commandChoices a (isStrict env a))) := by
  unfold resolveSettings configPath
  cases a.config with
  | none =>
      simp
  | some argument =>
      cases argument <;> simp

theorem isStrict_true
    (env : Environment)
    (a : Arguments) :
    isStrict env { a with strict := true } = true := by
  rfl

theorem isStrict_lenient
    (env : Environment)
    (a : Arguments) :
    isStrict (env.set Environment.strictVariable none) { a with strict := false } =
      false :=
  Settings.isStrict_set_strictVariable env

/-- The settings of a strict run are those of the lenient one, save that the
first failure ends the sweep. -/
theorem resolveSettings_of_strict
    {yaml : Yaml.Reader} {files : Files.Entry} {env : Environment} {a : Arguments}
    {settings : Settings}
    (hstrict :
      (resolveSettings yaml files env { a with strict := true }).outcome = .ok settings) :
    ∃ lenient,
      (resolveSettings yaml files (env.set Environment.strictVariable none)
          { a with strict := false }).outcome = .ok lenient ∧
        settings = stopping lenient := by
  rw [resolveSettings_outcome, isStrict_true, Outcome.bind_eq_ok_iff] at hstrict
  obtain ⟨path, hpath, hstrict⟩ := hstrict
  obtain ⟨loaded, hload, hchosen⟩ := Outcome.bind_eq_ok_iff.1 hstrict
  rw [Outcome.mapError_eq_ok_iff] at hload
  have hlenient :
      (Settings.load yaml files (env.set Environment.strictVariable none) false path).outcome =
        .ok loaded := by
    rw [Settings.load_set_strictVariable]
    exact Settings.refines_load yaml files env path loaded hload
  refine ⟨loaded.choose (commandChoices a false), ?_, (Except.ok.inj hchosen).symm⟩
  rw [resolveSettings_outcome, isStrict_lenient]
  exact Outcome.bind_eq_ok_iff.2
    ⟨path, hpath, Outcome.bind_eq_ok_iff.2
      ⟨loaded, Outcome.mapError_eq_ok_iff.2 hlenient, rfl⟩⟩

end Settings

section Sweeps

/-- A sweep that may stop and does not goes over the files like any other. -/
theorem result_sweepFiles_of_stopping
    {w : World} {settings : Settings} {stats : Stats} {files : List String}
    (hend : (sweepFiles w (stopping settings) none stats files).outcome = .ok ()) :
    (sweepFiles w settings none stats files).result =
      (sweepFiles w (stopping settings) none stats files).result := by
  induction files generalizing stats with
  | nil =>
      rfl
  | cons path rest ih =>
      cases hpath : (tagFile w settings.extensions path).outcome with
      | ok t =>
          have hresult := result_sweepFiles_of_ok hpath stats rest
          have hpath' :
              (tagFile w (stopping settings).extensions path).outcome = .ok t := hpath
          have hstopping := result_sweepFiles_of_ok hpath' stats rest
          have hrest :
              (sweepFiles w (stopping settings) none (stats.add t) rest).outcome =
                .ok () := by
            rw [← hend]
            exact (Sweep.result_eq_iff.1 hstopping).2.2.symm
          obtain ⟨htagged, hstats, houtcome⟩ := Sweep.result_eq_iff.1 (ih hrest)
          rw [hresult, hstopping, htagged, hstats, houtcome]
      | error failure =>
          have hfailed :
              (sweepFiles w (stopping settings) none stats (path :: rest)).outcome =
                .error failure := by
            have hpath' :
                (tagFile w (stopping settings).extensions path).outcome =
                  .error failure := hpath
            simp only [sweepFiles, hpath']
            split
            · rfl
            · rfl
          rw [hfailed] at hend
          cases hend

theorem refines_tagPaths
    (w : World)
    (settings : Settings)
    (paths : List String) :
    (tagPaths w (stopping settings) paths).Refines (tagPaths w settings paths) := by
  intro tagged htagged
  rw [tagPaths_outcome] at htagged ⊢
  cases hend : (w.swept (stopping settings) paths).outcome with
  | error failure =>
      rw [hend] at htagged
      cases htagged
  | ok _ =>
      have hresult :
          (w.swept settings paths).result = (w.swept (stopping settings) paths).result :=
        result_sweepFiles_of_stopping hend
      obtain ⟨hlists, hstats, houtcome⟩ := Sweep.result_eq_iff.1 hresult
      simp only [Sweep.tags, hlists, hstats, houtcome]
      exact htagged

end Sweeps

section Runs

/-- What a run leaves behind: its exit code, the files, and what was printed. -/
def Ending.effect (e : Ending) : Except Escape Nat × Files.Entry × String :=
  (e.outcome, e.files, e.printed)

@[simp] theorem Ending.effect_after
    (records : List Log.Record)
    (e : Ending) :
    (e.after records).effect = e.effect := by
  rfl

theorem effect_runWith_of_stopping
    {w : World} {a : Arguments} {settings : Settings}
    (hend : (runWith w a (stopping settings)).outcome = .ok 0) :
    (runWith w a settings).effect = (runWith w a (stopping settings)).effect := by
  unfold runWith at hend ⊢
  cases htagged : (tagPaths w (stopping settings) a.paths).outcome with
  | error failure =>
      simp only [htagged] at hend
      cases hend
  | ok result =>
      have hlenient := refines_tagPaths w settings a.paths result htagged
      simp only [htagged, hlenient, Ending.effect_after]
      rfl

theorem effect_runArguments_of_settings
    {w : World} {env : Environment} {a : Arguments} {settings : Settings}
    (hsettings : (resolveSettings w.yaml w.files env a).outcome = .ok settings) :
    (runArguments w env a).effect = (runWith w a settings).effect := by
  simp only [runArguments, hsettings, Ending.effect_after]

theorem exists_settings_of_ending
    {w : World} {env : Environment} {a : Arguments}
    (hend : (runArguments w env a).outcome = .ok 0) :
    ∃ settings, (resolveSettings w.yaml w.files env a).outcome = .ok settings := by
  cases hsettings : (resolveSettings w.yaml w.files env a).outcome with
  | ok settings =>
      exact ⟨settings, rfl⟩
  | error fault =>
      simp only [runArguments, hsettings] at hend
      cases fault with
      | struckPath =>
          cases hend
      | load fault =>
          cases fault <;> cases hend

/-- A strict run that ends well has the effect of the lenient run. -/
theorem lenient_run_of_strict_run
    (w : World)
    (env : Environment)
    (a : Arguments)
    (hend : (runArguments w env { a with strict := true }).outcome = .ok 0) :
    let strict := runArguments w env { a with strict := true }
    let lenient :=
      runArguments w (env.set Environment.strictVariable none) { a with strict := false }
    lenient.outcome = .ok 0 ∧ lenient.files = strict.files ∧
      lenient.printed = strict.printed := by
  intro strict lenient
  obtain ⟨settings, hstrict⟩ := exists_settings_of_ending hend
  obtain ⟨chosen, hlenient, rfl⟩ := resolveSettings_of_strict hstrict
  have hrun : strict.effect = (runWith w a (stopping chosen)).effect :=
    effect_runArguments_of_settings hstrict
  have hstopping : (runWith w a (stopping chosen)).outcome = .ok 0 := by
    rw [← hend]
    exact (congrArg Prod.fst hrun).symm
  have hsame : lenient.effect = strict.effect := by
    calc lenient.effect
        = (runWith w a chosen).effect := effect_runArguments_of_settings hlenient
      _ = (runWith w a (stopping chosen)).effect := effect_runWith_of_stopping hstopping
      _ = strict.effect := hrun.symm
  simp only [Ending.effect, Prod.mk.injEq] at hsame
  exact ⟨hsame.1.trans hend, hsame.2⟩

namespace Sample

/-- The sample world with a settings file. -/
def configured : World :=
  world.put "c.json" (.file (Text.octetsOf "\x7b\"sort_output\": false\x7d"))

def arguments : Arguments :=
  { paths := ["M.hs"], output := .text standardOutput, config := some (.text "c.json") }

def environment : Environment :=
  [(Environment.strictVariable, "1")]

end Sample

theorem lenient_run_of_strict_run_sample :
    let strict :=
      runArguments Sample.configured Sample.environment
        { Sample.arguments with strict := true }
    let lenient :=
      runArguments Sample.configured
        (Sample.environment.set Environment.strictVariable none)
        { Sample.arguments with strict := false }
    strict.outcome = .ok 0 ∧ lenient.outcome = .ok 0 ∧
      lenient.files = strict.files ∧ lenient.printed = strict.printed := by
  intro strict lenient
  have hend : strict.outcome = .ok 0 :=
    Outcome.toOption_eq_some_iff.1 (by decide +kernel)
  exact
    ⟨hend,
      lenient_run_of_strict_run Sample.configured Sample.environment
        Sample.arguments hend⟩

end Runs

end Run
end HaskellTags
