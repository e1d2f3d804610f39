import HaskellTags.Proofs.Run.Strictness
import HaskellTags.Proofs.Settings.Extensions

/-!
# Which layer decides a setting

The settings of a run come from the command line, the environment and a file, and each of
these may leave a setting open.  `layers` lists for every key what these say about it, the
highest first, in terms of the arguments, the variables and the values in the file.  A
setting is what the highest layer says that does not leave it open.

Settings of different keys have different types.  What settings and choices say about a key
has the type `Key.Setting`, so that one statement is about all keys.
-/

namespace HaskellTags
namespace Settings

section Keys

/-- What a key can be set to. -/
abbrev Key.Setting : Key → Type
  | .extensions | .excludedDirs => List String
  | .sortOutput | .emitHeader | .continueOnError => Bool
  | .format => Format

/-- What a key is set to. -/
def get (s : Settings) : (key : Key) → key.Setting
  | .extensions => s.extensions
  | .excludedDirs => s.excludedDirs
  | .sortOutput => s.sortOutput
  | .emitHeader => s.emitHeader
  | .continueOnError => s.continueOnError
  | .format => s.format

/-- What is chosen for a key. -/
def Choices.get? (c : Choices) : (key : Key) → Option key.Setting
  | .extensions => c.extensions
  | .excludedDirs => c.excludedDirs
  | .sortOutput => c.sortOutput
  | .emitHeader => c.emitHeader
  | .continueOnError => c.continueOnError
  | .format => c.format

/-- What a value sets a key to, if it is valid for it. -/
def Key.settingOf? : (key : Key) → Value → Option key.Setting
  | .extensions, v => (textsOf? v).map normalExtensions
  | .excludedDirs, v => (textsOf? v).map fun texts => texts.filter fun t => !t.isEmpty
  | .sortOutput, v | .emitHeader, v | .continueOnError, v => v.bool?
  | .format, v => v.text?.bind Format.ofName?

/-- The values under a key.  A mapping has one at most. -/
def valuesUnder (entries : Entries) (key : Key) : List Value :=
  entries.filterMap fun e => if e.1 = .text key.name then some e.2 else none

/-- What the entries of a file set a key to: a value that is not valid leaves it open. -/
def fileSetting (entries : Entries) (key : Key) : Option key.Setting :=
  ((valuesUnder entries key).filterMap key.settingOf?).getLast?

theorem get_choose
    (s : Settings)
    (c : Choices)
    (key : Key) :
    (s.choose c).get key = (c.get? key).getD (s.get key) := by
  cases key <;> rfl

theorem get?_over
    (higher lower : Choices)
    (key : Key) :
    (higher.over lower).get? key = (higher.get? key).or (lower.get? key) := by
  cases key <;> rfl

theorem get?_only
    (c : Choices)
    (key : Key) :
    (c.only key).get? key = c.get? key := by
  cases key <;> rfl

theorem get?_empty
    (key : Key) :
    ({} : Choices).get? key = none := by
  cases key <;> rfl

end Keys

section Entries

theorem settingOf?_eq
    (key : Key)
    (v : Value) :
    key.settingOf? v = (choiceFor key v).toOption.bind fun choice => choice.get? key := by
  cases key with
  | extensions | excludedDirs =>
      simp only [Key.settingOf?, choiceFor, textsFor]
      cases textsOf? v <;> rfl
  | sortOutput | emitHeader | continueOnError =>
      simp only [Key.settingOf?, choiceFor, boolFor]
      cases v.bool? <;> rfl
  | format =>
      simp only [Key.settingOf?, choiceFor, formatFor]
      cases v.text?.bind Format.ofName? <;> rfl

variable {entry : Scalar × Value}

/-- What an entry says about a key. -/
def entrySetting (entry : Scalar × Value) (key : Key) : Option key.Setting :=
  if entry.1 = .text key.name then key.settingOf? entry.2 else none

theorem get?_of_choiceOf
    {choice : Choices}
    (h : choiceOf entry = .ok choice)
    (key : Key) :
    choice.get? key = entrySetting entry key := by
  obtain ⟨scalar, v⟩ := entry
  by_cases hname : scalar = .text key.name
  · subst hname
    rw [choiceOf_of_key] at h
    rw [entrySetting, if_pos rfl, settingOf?_eq, h]
    rfl
  · rw [entrySetting, if_neg hname, ← get?_only, only_of_other_key h hname, get?_empty]

theorem entrySetting_of_error
    {fault : EntryFault}
    (h : choiceOf entry = .error fault)
    (key : Key) :
    entrySetting entry key = none := by
  obtain ⟨scalar, v⟩ := entry
  by_cases hname : scalar = .text key.name
  · subst hname
    rw [choiceOf_of_key] at h
    rw [entrySetting, if_pos rfl, settingOf?_eq, h]
    rfl
  · rw [entrySetting, if_neg hname]

theorem fileSetting_cons
    (entry : Scalar × Value)
    (rest : Entries)
    (key : Key) :
    fileSetting (entry :: rest) key = (fileSetting rest key).or (entrySetting entry key) := by
  unfold fileSetting valuesUnder entrySetting
  by_cases hname : entry.1 = .text key.name
  · cases hsetting : key.settingOf? entry.2 with
    | none =>
        simp [hname, hsetting]
    | some setting =>
        simp [hname, hsetting, List.getLast?_cons]
  · simp [hname]

/-- A lenient reading of entries chooses for every key what they set it to. -/
theorem get?_of_lenient
    {entries : Entries} {chosen S : Choices}
    (h : (chooseFrom false chosen entries).outcome = .ok S)
    (key : Key) :
    S.get? key = (fileSetting entries key).or (chosen.get? key) := by
  induction entries generalizing chosen with
  | nil =>
      cases h
      rfl
  | cons entry rest ih =>
      rw [fileSetting_cons]
      rcases lenient_chooseFrom_cons h with ⟨choice, hchoice, hrest⟩ | ⟨fault, hfault, hrest⟩
      · rw [ih hrest, get?_over, get?_of_choiceOf hchoice, Option.or_assoc]
      · rw [ih hrest, entrySetting_of_error hfault, Option.or_none]

theorem get?_of_ofEntries
    {strict : Bool} {entries : Entries} {S : Choices}
    (h : (ofEntries strict entries).outcome = .ok S)
    (key : Key) :
    S.get? key = fileSetting entries key := by
  have hlenient : (ofEntries false entries).outcome = .ok S := by
    cases strict with
    | false =>
        exact h
    | true =>
        rw [ofEntries, (strict_chooseFrom_eq_ok_iff entries {} S).1 h]
  rw [get?_of_lenient hlenient, get?_empty, Option.or_none]

end Entries

section Variables

open Text

/-- A text switches a flag on if it is one of four words between blanks, in upper case or
in lower case. -/
def SwitchesOn (text : String) : Prop :=
  ∃ lead word trail : List Char,
    text.toList = lead ++ word ++ trail ∧
    (∀ c ∈ lead, isBlank c = true) ∧ (∀ c ∈ trail, isBlank c = true) ∧
    String.ofList (word.map Char.toLower) ∈ ["1", "true", "yes", "on"]

theorem toLower_of_isBlank
    {c : Char}
    (hc : isBlank c = true) :
    c.toLower = c := by
  have hval : c.val.toNat = c.toNat := rfl
  have hnot : ¬ (c.val ≥ 'A'.val ∧ c.val ≤ 'Z'.val) := by
    rw [ge_iff_le, UInt32.le_iff_toNat_le, UInt32.le_iff_toNat_le, hval]
    simp only [isBlank, Bool.or_eq_true, Bool.and_eq_true, decide_eq_true_eq, beq_iff_eq] at hc
    simp only [Char.reduceVal, UInt32.reduceToNat]
    omega
  exact dif_neg hnot

/-- No word that switches a flag on has a blank in it. -/
theorem isBlank_of_mem_onWord
    {word : List Char}
    (hword : String.ofList (word.map Char.toLower) ∈ Environment.onWords) :
    ∀ c ∈ word, isBlank c = false := by
  have hwords : (Environment.onWords.all fun w => w.toList.all fun c => !isBlank c) = true := rfl
  have hchars := List.all_eq_true.1 (List.all_eq_true.1 hwords _ hword)
  rw [String.toList_ofList] at hchars
  intro c hc
  by_contra hblank
  rw [Bool.not_eq_false] at hblank
  have hmem : c ∈ word.map Char.toLower :=
    List.mem_map.2 ⟨c, hc, toLower_of_isBlank hblank⟩
  have hnot := hchars c hmem
  rw [hblank] at hnot
  cases hnot

theorem isOn_iff_switchesOn
    {text : String} :
    Environment.isOn text = true ↔ SwitchesOn text := by
  have hlower : ∀ cs : List Char,
      (String.ofList cs).toLower = String.ofList (cs.map Char.toLower) := by
    intro cs
    change String.map Char.toLower (String.ofList cs) = _
    rw [← String.toList_inj, String.toList_map, String.toList_ofList, String.toList_ofList]
  rw [Environment.isOn, List.contains_iff_mem, trim, hlower]
  constructor
  · intro hword
    obtain ⟨lead, trail, htext, hlead, htrail, -, -⟩ := exists_trimEnds isBlank text.toList
    exact ⟨lead, trimChars text.toList, trail, htext, hlead, htrail, hword⟩
  · rintro ⟨lead, word, trail, htext, hlead, htrail, hword⟩
    have hfree := isBlank_of_mem_onWord hword
    have htrim : trimChars text.toList = word := by
      rw [htext]
      exact trimEnds_append hlead htrail (fun c hc => hfree c (List.mem_of_head? hc))
        fun c hc => hfree c (List.mem_of_getLast? hc)
    rw [htrim]
    exact hword

/-- The extensions that a variable lists, if it has an item that is not blank. -/
def variableExtensions (env : Environment) : Option (List String) :=
  (env.get? Environment.extensionsVariable).bind fun text =>
    let items := Text.splitText (· == ',') text
    if items.all Text.isBlankText then none else some (normalExtensions items)

theorem choices_extensions
    (env : Environment) :
    env.choices.extensions = variableExtensions env := by
  unfold Environment.choices variableExtensions
  cases env.get? Environment.extensionsVariable with
  | none =>
      rfl
  | some text =>
      have hitems :
          Environment.extensionsOf text =
            normalExtensions (Text.splitText (· == ',') text) :=
        (normalExtensions_eq _).symm
      simp only [Option.map_some, Option.bind_some, hitems, ← normalExtensions_eq_nil_iff]
      cases normalExtensions (Text.splitText (· == ',') text) <;> rfl

end Variables

end Settings

namespace Run

open CommandLine Settings

section Layers

/-- What the settings file of a command line holds.  One that is missing or broken holds
nothing, as if none were asked for. -/
inductive Supplies (yaml : Yaml.Reader) (files : Files.Entry) : Option Argument → Entries → Prop
  | unasked : Supplies yaml files none []
  | held
      {path : String} {entries : Entries}
      (h : Holds yaml files path entries) :
      Supplies yaml files (some (.text path)) entries
  | broken
      {path : String} {refusal : Refusal}
      (h : Broken yaml files path refusal) :
      Supplies yaml files (some (.text path)) []

/-- What the layers say about a key, the highest first. -/
def layers (env : Environment) (a : Arguments) (entries : Entries) :
    (key : Key) → List (Option key.Setting)
  | .extensions => [variableExtensions env, fileSetting entries .extensions]
  | .excludedDirs => [fileSetting entries .excludedDirs]
  | .sortOutput =>
    [if a.noSort then some false else none,
      (env.get? Environment.sortVariable).map Environment.isOn,
      fileSetting entries .sortOutput]
  | .emitHeader =>
    [if a.noHeader then some false else none, fileSetting entries .emitHeader]
  | .continueOnError =>
    [if a.strict || env.flag Environment.strictVariable false then some false else none,
      fileSetting entries .continueOnError]
  | .format => [a.format, fileSetting entries .format]

/-- What the highest layer says that says something. -/
def highest {α : Type} (ls : List (Option α)) : Option α :=
  ls.foldr Option.or none

/-- Layers that agree: on everything, or down to one that says something. -/
def Agree {α : Type} (ls ls' : List (Option α)) : Prop :=
  ls = ls' ∨
    ∃ (above : List (Option α)) (x : α) (below below' : List (Option α)),
      ls = above ++ some x :: below ∧ ls' = above ++ some x :: below'

theorem highest_of_agree
    {α : Type} {ls ls' : List (Option α)}
    (h : Agree ls ls') :
    highest ls' = highest ls := by
  rcases h with rfl | ⟨above, x, below, below', rfl, rfl⟩
  · rfl
  · simp [highest]

/-- The layers are the choices of the command line, of the environment and of the file. -/
theorem highest_layers
    (env : Environment)
    (a : Arguments)
    (entries : Entries)
    (key : Key) :
    highest (layers env a entries key) =
      ((commandChoices a (isStrict env a)).get? key).or
        ((env.choices.get? key).or (fileSetting entries key)) := by
  cases key with
  | extensions =>
      have hvariable : env.choices.get? .extensions = variableExtensions env :=
        choices_extensions env
      rw [hvariable]
      exact congrArg (Option.or _) Option.or_none
  | sortOutput =>
      exact congrArg (Option.or _) (congrArg (Option.or _) Option.or_none)
  | excludedDirs =>
      exact Option.or_none
  | emitHeader | continueOnError | format =>
      exact congrArg (Option.or _) Option.or_none

variable {yaml : Yaml.Reader} {files : Files.Entry} {env : Environment} {a : Arguments}
variable {S : Settings}
variable {entries : Entries}

theorem exists_loaded
    (h : (resolveSettings yaml files env a).outcome = .ok S) :
    ∃ (path : Option String) (loaded : Settings),
      configPath a = .ok path ∧
      (load yaml files env (isStrict env a) path).outcome = .ok loaded ∧
      S = loaded.choose (commandChoices a (isStrict env a)) := by
  rw [resolveSettings_outcome, Outcome.bind_eq_ok_iff] at h
  obtain ⟨path, hpath, h⟩ := h
  obtain ⟨loaded, hload, hchosen⟩ := Outcome.bind_eq_ok_iff.1 h
  rw [Outcome.mapError_eq_ok_iff] at hload
  exact ⟨path, loaded, hpath, hload, (Except.ok.inj hchosen).symm⟩

theorem config_of_configPath
    {path : Option String}
    (h : configPath a = .ok path) :
    a.config = path.map Argument.text := by
  unfold configPath at h
  split at h
  · rename_i hconfig
    cases h
    exact hconfig
  · rename_i hconfig
    cases h
    exact hconfig
  · cases h

/-- A run that comes to settings has no settings file, or one that holds something or
nothing. -/
theorem exists_supplies
    (h : (resolveSettings yaml files env a).outcome = .ok S) :
    ∃ entries : Entries, Supplies yaml files a.config entries := by
  obtain ⟨path, loaded, hpath, hload, -⟩ := exists_loaded h
  rw [config_of_configPath hpath]
  cases path with
  | none =>
      exact ⟨[], .unasked⟩
  | some path =>
      rcases barred_or_broken_or_holds yaml files path with
        ⟨fault, hbarred⟩ | ⟨refusal, hbroken⟩ | ⟨entries, hholds⟩
      · rw [load_of_barred hbarred] at hload
        cases hload
      · exact ⟨[], .broken hbroken⟩
      · exact ⟨entries, .held hholds⟩

/-- What is loaded are the defaults, changed by what the file holds and then by the
environment. -/
theorem exists_choices_of_load
    {path : Option String} {loaded : Settings}
    (hfile : Supplies yaml files (path.map Argument.text) entries)
    (hload : (load yaml files env (isStrict env a) path).outcome = .ok loaded) :
    ∃ chosen : Choices,
      (∀ key : Key, chosen.get? key = fileSetting entries key) ∧
      loaded = (({} : Settings).choose chosen).choose env.choices := by
  cases path with
  | none =>
      cases hfile
      cases hload
      exact ⟨{}, fun key => get?_empty key, rfl⟩
  | some path =>
      cases hfile with
      | held hholds =>
          rw [outcome_load, choicesAt_of_holds hholds, Outcome.map_eq_ok_iff] at hload
          obtain ⟨chosen, hchosen, rfl⟩ := hload
          rw [Outcome.mapError_eq_ok_iff] at hchosen
          exact ⟨chosen, get?_of_ofEntries hchosen, rfl⟩
      | broken hbroken =>
          obtain ⟨hstrict, hlenient⟩ := load_of_broken hbroken env
          cases hmode : isStrict env a with
          | true =>
              rw [hmode, hstrict] at hload
              cases hload
          | false =>
              rw [hmode, hlenient] at hload
              cases hload
              exact ⟨{}, fun key => get?_empty key, rfl⟩

/-- A setting is what the highest layer says, and the default if none says anything. -/
theorem get_of_supplies
    (hfile : Supplies yaml files a.config entries)
    (h : (resolveSettings yaml files env a).outcome = .ok S)
    (key : Key) :
    S.get key = (highest (layers env a entries key)).getD (({} : Settings).get key) := by
  obtain ⟨path, loaded, hpath, hload, rfl⟩ := exists_loaded h
  rw [config_of_configPath hpath] at hfile
  obtain ⟨chosen, hchosen, rfl⟩ := exists_choices_of_load hfile hload
  rw [highest_layers, get_choose, get_choose, get_choose, hchosen, Option.getD_or,
    Option.getD_or]

end Layers

section Precedence

/-- Every setting of a run is what the highest layer says about it, and the default if none
says anything.  A run whose layers say the same down to that one comes to the same setting,
whatever its lower layers say and whatever is said about other settings. -/
theorem settings_from_highest_layer
    {yaml : Yaml.Reader} {files : Files.Entry} {env : Environment} {a : Arguments}
    {S : Settings}
    (h : (resolveSettings yaml files env a).outcome = .ok S) :
    (∃ entries : Entries, Supplies yaml files a.config entries) ∧
    ∀ entries : Entries, Supplies yaml files a.config entries →
      ∀ key : Key,
        S.get key = (highest (layers env a entries key)).getD (({} : Settings).get key) ∧
        ∀ (files' : Files.Entry) (env' : Environment) (a' : Arguments) (S' : Settings)
          (entries' : Entries),
          Supplies yaml files' a'.config entries' →
          (resolveSettings yaml files' env' a').outcome = .ok S' →
          Agree (layers env a entries key) (layers env' a' entries' key) →
          S'.get key = S.get key := by
  refine ⟨exists_supplies h, ?_⟩
  intro entries hfile key
  refine ⟨get_of_supplies hfile h key, ?_⟩
  intro files' env' a' S' entries' hfile' h' hagree
  rw [get_of_supplies hfile' h', get_of_supplies hfile h, highest_of_agree hagree]

namespace Sample

/-- The sample world with a settings file that asks for no sorting and for another format. -/
def layered : World :=
  world.put "c.json"
    (.file (Text.octetsOf "\x7b\"sort_output\": false, \"output_format\": \"jsonl\"\x7d"))

/-- A variable that asks for sorting. -/
def sorting : Environment :=
  [(Environment.sortVariable, " Yes\t")]

end Sample

/-- The variable decides over the file, also where there is no file, and the command line
decides over the variable.  The format comes from the file, whatever the command line says
about sorting. -/
theorem settings_from_highest_layer_sample :
    let resolve := fun a => (resolveSettings Sample.layered.yaml Sample.layered.files
      Sample.sorting a).outcome
    ∃ S bare unsorted : Settings,
      resolve Sample.arguments = .ok S ∧
      resolve { Sample.arguments with config := none } = .ok bare ∧
      resolve { Sample.arguments with noSort := true } = .ok unsorted ∧
      S.sortOutput = true ∧ bare.sortOutput = S.sortOutput ∧ unsorted.sortOutput = false ∧
      S.format = .jsonl ∧ unsorted.format = S.format := by
  intro resolve
  have h : resolve Sample.arguments = .ok { sortOutput := true, format := .jsonl } :=
    Outcome.toOption_eq_some_iff.1 (by decide +kernel)
  have hbare : resolve { Sample.arguments with config := none } = .ok {} :=
    Outcome.toOption_eq_some_iff.1 (by decide +kernel)
  have hunsorted :
      resolve { Sample.arguments with noSort := true } =
        .ok { sortOutput := false, format := .jsonl } :=
    Outcome.toOption_eq_some_iff.1 (by decide +kernel)
  have hon : Environment.isOn " Yes\t" = true :=
    isOn_iff_switchesOn.2
      ⟨[' '], ['Y', 'e', 's'], ['\t'], rfl, List.forall_mem_singleton.2 rfl,
        List.forall_mem_singleton.2 rfl, by decide⟩
  obtain ⟨⟨entries, hfile⟩, hkeys⟩ := settings_from_highest_layer h
  obtain ⟨⟨others, hother⟩, hlimited⟩ := settings_from_highest_layer hunsorted
  have hvariable : ∀ entries a, a.noSort = false →
      layers Sample.sorting a entries .sortOutput =
        [none] ++ some true :: [fileSetting entries .sortOutput] := by
    intro entries a hsort
    simp [layers, hsort, Sample.sorting, Environment.get?, hon]
  refine ⟨_, _, _, h, hbare, hunsorted, ?_, ?_, ?_, rfl, ?_⟩
  · refine ((hkeys entries hfile .sortOutput).1).trans ?_
    rw [hvariable entries _ rfl]
    rfl
  · refine (hkeys entries hfile .sortOutput).2 _ _ _ _ [] .unasked hbare (.inr ?_)
    exact ⟨[none], true, _, _, hvariable entries _ rfl, hvariable [] _ rfl⟩
  · exact (hlimited others hother .sortOutput).1
  · exact (hkeys entries hfile .format).2 _ _ { Sample.arguments with noSort := true } _
      entries hfile hunsorted (.inl rfl)

end Precedence

end Run
end HaskellTags
