import HaskellTags.Proofs.Journal
import HaskellTags.Settings.Load

/-!
# Which faults a reading of settings contains

A settings file is found in one of three conditions.  It may be barred: the file
system, the decoding or the value of a scalar ends the reading whether it is
strict or not.  It may be broken: a strict reading refuses it, and a lenient one
warns and goes on without it.  Or it holds entries, which are then looked at one
by one.  `barred_or_broken_or_holds` says that there is nothing else, and one
lemma for each condition says what the entries of the file are.

Of the faults in single entries only one is not contained: a problem whose
wording would have to show an integer with too many digits.
-/

namespace HaskellTags
namespace Settings

section Conditions

/-- The octets at a path are a text. -/
def HoldsText (root : Files.Entry) (path text : String) : Prop :=
  ∃ octets : Text.Octets,
    Files.read root (Files.Path.normal path) = .ok octets ∧
    decodeText octets = .ok text

/-- What is at a path cannot be opened, is no text, or writes a scalar that is
no value. -/
inductive Barred (yaml : Yaml.Reader) (root : Files.Entry) (path : String) : LoadFault → Prop
  | unreadable
      {e : Files.Error}
      (hread : Files.read root (Files.Path.normal path) = .error e)
      (hpresent : e.isMissing = false) :
      Barred yaml root path (.unreadable e)
  | undecodable
      {octets : Text.Octets} {e : Text.DecodeError}
      (hread : Files.read root (Files.Path.normal path) = .ok octets)
      (hdecode : decodeText octets = .error e) :
      Barred yaml root path (.undecodable e)
  | scalar
      {text : String} {fault : Yaml.ScalarFault}
      (htext : HoldsText root path text)
      (hparse : parse yaml path text = .error (.scalar fault)) :
      Barred yaml root path (.scalar fault)
  | excess
      {text : String} {excess : Json.Excess}
      (htext : HoldsText root path text)
      (hparse : parse yaml path text = .error (.excess excess)) :
      Barred yaml root path (.excess excess)

/-- There is no file at a path, or one that holds no mapping. -/
inductive Broken (yaml : Yaml.Reader) (root : Files.Entry) (path : String) : Refusal → Prop
  | missing
      {e : Files.Error}
      (hread : Files.read root (Files.Path.normal path) = .error e)
      (hmissing : e.isMissing = true) :
      Broken yaml root path (.missing path)
  | unparsable
      {text detail : String}
      (htext : HoldsText root path text)
      (hparse : parse yaml path text = .error (.malformed detail)) :
      Broken yaml root path (.unparsable path detail)
  | notMapping
      {text : String} {v : Value}
      (htext : HoldsText root path text)
      (hparse : parse yaml path text = .ok v)
      (hmap : ∀ entries : Entries, v ≠ .map entries)
      (hnull : v ≠ .null) :
      Broken yaml root path (.notMapping v.typeName)

/-- The file at a path holds a mapping; an empty document is one without
entries. -/
inductive Holds (yaml : Yaml.Reader) (root : Files.Entry) (path : String) : Entries → Prop
  | map
      {text : String} {entries : Entries}
      (htext : HoldsText root path text)
      (hparse : parse yaml path text = .ok (.map entries)) :
      Holds yaml root path entries
  | null
      {text : String}
      (htext : HoldsText root path text)
      (hparse : parse yaml path text = .ok .null) :
      Holds yaml root path []

/-- How the warning about a refusal ends. -/
def Refusal.remedy : Refusal → String
  | .missing _ => "; continuing with defaults"
  | .unparsable _ _ => "; continuing with defaults"
  | .notMapping _ => "; ignoring"
  | .invalid _ => "; ignoring"

/-- The record of a lenient reading about what a strict one refuses. -/
def Refusal.warning (refusal : Refusal) : Log.Record :=
  .of .warning .settings (refusal.message ++ refusal.remedy)

theorem barred_or_broken_or_holds
    (yaml : Yaml.Reader)
    (root : Files.Entry)
    (path : String) :
    (∃ fault : LoadFault, Barred yaml root path fault) ∨
    (∃ refusal : Refusal, Broken yaml root path refusal) ∨
    (∃ entries : Entries, Holds yaml root path entries) := by
  cases hread : Files.read root (Files.Path.normal path) with
  | error e =>
      cases hmissing : e.isMissing with
      | true =>
          exact Or.inr (Or.inl ⟨_, .missing hread hmissing⟩)
      | false =>
          exact Or.inl ⟨_, .unreadable hread hmissing⟩
  | ok octets =>
      cases hdecode : decodeText octets with
      | error e =>
          exact Or.inl ⟨_, .undecodable hread hdecode⟩
      | ok text =>
          have htext : HoldsText root path text :=
            ⟨octets, hread, hdecode⟩
          cases hparse : parse yaml path text with
          | error fault =>
              cases fault with
              | malformed detail =>
                  exact Or.inr (Or.inl ⟨_, .unparsable htext hparse⟩)
              | scalar fault =>
                  exact Or.inl ⟨_, .scalar htext hparse⟩
              | excess excess =>
                  exact Or.inl ⟨_, .excess htext hparse⟩
          | ok v =>
              by_cases hmap : ∃ entries : Entries, v = .map entries
              · obtain ⟨entries, rfl⟩ := hmap
                exact Or.inr (Or.inr ⟨entries, .map htext hparse⟩)
              by_cases hnull : v = .null
              · subst hnull
                exact Or.inr (Or.inr ⟨[], .null htext hparse⟩)
              · refine Or.inr (Or.inl ⟨_, .notMapping htext hparse ?_ hnull⟩)
                intro entries hv
                exact hmap ⟨entries, hv⟩

end Conditions

section Files

theorem entriesAt_of_barred
    {yaml : Yaml.Reader} {root : Files.Entry} {path : String} {fault : LoadFault}
    (h : Barred yaml root path fault)
    (strict : Bool) :
    entriesAt yaml root strict path = .fail fault := by
  cases h with
  | unreadable hread hpresent =>
      unfold entriesAt
      simp [hread, hpresent]
  | undecodable hread hdecode =>
      unfold entriesAt
      simp [hread, hdecode]
  | scalar htext hparse =>
      obtain ⟨octets, hread, hdecode⟩ := htext
      unfold entriesAt
      simp [hread, hdecode, hparse]
  | excess htext hparse =>
      obtain ⟨octets, hread, hdecode⟩ := htext
      unfold entriesAt
      simp [hread, hdecode, hparse]

theorem entriesOf_of_not_map
    {v : Value}
    (hmap : ∀ entries : Entries, v ≠ .map entries)
    (hnull : v ≠ .null)
    (strict : Bool) :
    entriesOf strict v =
      (do
        (complain strict Refusal.message (.notMapping v.typeName)).mapFault .refused
        return []) := by
  unfold entriesOf
  split
  · rename_i entries
    exact absurd rfl (hmap entries)
  · exact absurd rfl hnull
  · rfl

theorem entriesAt_of_broken
    {yaml : Yaml.Reader} {root : Files.Entry} {path : String} {refusal : Refusal}
    (h : Broken yaml root path refusal) :
    entriesAt yaml root true path = ⟨.error (.refused refusal), []⟩ ∧
    entriesAt yaml root false path = ⟨.ok [], [refusal.warning]⟩ := by
  cases h with
  | missing hread hmissing =>
      unfold entriesAt
      simp only [hread, hmissing, if_true]
      exact ⟨rfl, rfl⟩
  | unparsable htext hparse =>
      obtain ⟨octets, hread, hdecode⟩ := htext
      unfold entriesAt
      simp only [hread, hdecode, hparse]
      exact ⟨rfl, rfl⟩
  | notMapping htext hparse hmap hnull =>
      obtain ⟨octets, hread, hdecode⟩ := htext
      unfold entriesAt
      simp only [hread, hdecode, hparse,
        entriesOf_of_not_map hmap hnull]
      exact ⟨rfl, rfl⟩

theorem entriesAt_of_holds
    {yaml : Yaml.Reader} {root : Files.Entry} {path : String} {entries : Entries}
    (h : Holds yaml root path entries)
    (strict : Bool) :
    entriesAt yaml root strict path = pure entries := by
  cases h with
  | map htext hparse =>
      obtain ⟨octets, hread, hdecode⟩ := htext
      unfold entriesAt
      simp only [hread, hdecode, hparse]
      rfl
  | null htext hparse =>
      obtain ⟨octets, hread, hdecode⟩ := htext
      unfold entriesAt
      simp only [hread, hdecode, hparse]
      rfl

end Files

section Entries

/-- An entry with a problem that cannot be put into words. -/
def Unwordable (entry : Scalar × Value) : Prop :=
  choiceOf entry = .error (.limit .writing)

theorem limit_of_showing
    {problem : String → Problem}
    {shown : Except Decimal.LimitFault String}
    {fault : Decimal.LimitFault}
    (h : showing problem shown = .limit fault) :
    shown = .error fault := by
  cases shown with
  | error e =>
      cases h
      rfl
  | ok text =>
      cases h

theorem writing_of_shown
    {v : Value} {fault : Decimal.LimitFault}
    (h : v.shown = .error fault) :
    fault = .writing := by
  unfold Value.shown at h
  split at h
  · cases h
  · cases h
    rfl

theorem writing_of_shownPlain
    {s : Scalar} {fault : Decimal.LimitFault}
    (h : s.shownPlain = .error fault) :
    fault = .writing := by
  unfold Scalar.shownPlain at h
  split at h
  · cases h
  · cases h
    rfl

theorem textsFor_ne_limit
    (key : Key)
    (v : Value)
    (fault : Decimal.LimitFault) :
    textsFor key v ≠ .error (.limit fault) := by
  unfold textsFor
  cases textsOf? v <;> simp

theorem boolFor_ne_limit
    (key : Key)
    (v : Value)
    (fault : Decimal.LimitFault) :
    boolFor key v ≠ .error (.limit fault) := by
  unfold boolFor
  cases v.bool? <;> simp

theorem formatFor_limit
    {v : Value} {fault : Decimal.LimitFault}
    (h : formatFor v = .error (.limit fault)) :
    fault = .writing := by
  unfold formatFor at h
  cases hformat : v.text?.bind Format.ofName? with
  | some format =>
      simp [hformat] at h
  | none =>
      simp only [hformat, Except.error.injEq] at h
      exact writing_of_shown (limit_of_showing h)

/-- What an entry cannot say is always an integer that would be written. -/
theorem choiceOf_limit
    {entry : Scalar × Value} {fault : Decimal.LimitFault}
    (h : choiceOf entry = .error (.limit fault)) :
    fault = .writing := by
  unfold choiceOf at h
  cases hkey : Key.ofScalar? entry.1 with
  | none =>
      simp only [hkey, Except.error.injEq] at h
      exact writing_of_shownPlain (limit_of_showing h)
  | some key =>
      simp only [hkey] at h
      cases key with
      | extensions =>
          exact absurd (Outcome.map_eq_error_iff.mp h) (textsFor_ne_limit _ _ _)
      | excludedDirs =>
          exact absurd (Outcome.map_eq_error_iff.mp h) (textsFor_ne_limit _ _ _)
      | sortOutput =>
          exact absurd (Outcome.map_eq_error_iff.mp h) (boolFor_ne_limit _ _ _)
      | emitHeader =>
          exact absurd (Outcome.map_eq_error_iff.mp h) (boolFor_ne_limit _ _ _)
      | continueOnError =>
          exact absurd (Outcome.map_eq_error_iff.mp h) (boolFor_ne_limit _ _ _)
      | format =>
          exact formatFor_limit (Outcome.map_eq_error_iff.mp h)

/-- A reading of entries fails at a problem if it is strict, and otherwise only
at one that cannot be put into words. -/
theorem outcome_chooseFrom_of_error
    {strict : Bool} {chosen : Choices} {entries : Entries} {fault : EntryFault}
    (h : (chooseFrom strict chosen entries).outcome = .error fault) :
    (strict = true ∧ ∃ problem : Problem, fault = .problem problem) ∨
    (fault = .limit .writing ∧ ∃ entry ∈ entries, Unwordable entry) := by
  induction entries generalizing chosen with
  | nil =>
      cases h
  | cons entry rest ih =>
      have hlater :
          ((strict = true ∧ ∃ problem : Problem, fault = .problem problem) ∨
            (fault = .limit .writing ∧ ∃ e ∈ rest, Unwordable e)) →
          (strict = true ∧ ∃ problem : Problem, fault = .problem problem) ∨
            (fault = .limit .writing ∧ ∃ e ∈ entry :: rest, Unwordable e) := by
        rintro (hproblem | ⟨hfault, e, he, hunwordable⟩)
        · exact Or.inl hproblem
        · exact Or.inr ⟨hfault, e, List.mem_cons_of_mem entry he, hunwordable⟩
      unfold chooseFrom at h
      cases hchoice : choiceOf entry with
      | ok choice =>
          rw [hchoice] at h
          exact hlater (ih h)
      | error found =>
          rw [hchoice] at h
          cases found with
          | limit found =>
              cases choiceOf_limit hchoice
              cases h
              exact Or.inr ⟨rfl, entry, List.mem_cons_self, hchoice⟩
          | problem problem =>
              cases strict with
              | true =>
                  cases h
                  exact Or.inl ⟨rfl, problem, rfl⟩
              | false =>
                  exact hlater (ih h)

/-- A lenient reading passes over every problem on its way to one that cannot be
put into words. -/
theorem outcome_chooseFrom_lenient
    {entries : Entries} {entry : Scalar × Value}
    (hmem : entry ∈ entries)
    (hentry : Unwordable entry)
    (chosen : Choices) :
    (chooseFrom false chosen entries).outcome = .error (.limit .writing) := by
  induction entries generalizing chosen with
  | nil =>
      cases hmem
  | cons first rest ih =>
      unfold chooseFrom
      rcases List.mem_cons.mp hmem with rfl | hrest
      · rw [hentry]
        rfl
      · cases hchoice : choiceOf first with
        | ok choice =>
            exact ih hrest (choice.over chosen)
        | error found =>
            cases found with
            | limit fault =>
                rw [choiceOf_limit hchoice]
                rfl
            | problem problem =>
                exact ih hrest chosen

end Entries

section Loading

/-- A fault that neither reading of the settings at a path expects. -/
def Unexpected (yaml : Yaml.Reader) (root : Files.Entry) (path : String)
    (fault : LoadFault) : Prop :=
  Barred yaml root path fault ∨
  (fault = .limit .writing ∧
    ∃ entries : Entries, Holds yaml root path entries ∧ ∃ entry ∈ entries, Unwordable entry)

theorem outcome_load
    (yaml : Yaml.Reader)
    (root : Files.Entry)
    (env : Environment)
    (strict : Bool)
    (path : String) :
    (load yaml root env strict (some path)).outcome =
      ((choicesAt yaml root strict path).outcome).map
        fun chosen => (({} : Settings).choose chosen).choose env.choices := by
  change (choicesAt yaml root strict path >>= _).outcome = _
  rw [Journal.outcome_bind]
  cases (choicesAt yaml root strict path).outcome <;> rfl

theorem load_of_barred
    {yaml : Yaml.Reader} {root : Files.Entry} {path : String} {fault : LoadFault}
    (h : Barred yaml root path fault)
    (env : Environment)
    (strict : Bool) :
    (load yaml root env strict (some path)).outcome = .error fault := by
  rw [outcome_load, choicesAt, entriesAt_of_barred h]
  rfl

theorem load_of_broken
    {yaml : Yaml.Reader} {root : Files.Entry} {path : String} {refusal : Refusal}
    (h : Broken yaml root path refusal)
    (env : Environment) :
    (load yaml root env true (some path)).outcome = .error (.refused refusal) ∧
    load yaml root env false (some path) =
      ⟨.ok (({} : Settings).choose env.choices), [refusal.warning]⟩ := by
  obtain ⟨hstrict, hlenient⟩ := entriesAt_of_broken h
  constructor
  · rw [outcome_load, choicesAt, hstrict]
    rfl
  · simp only [load, choicesAt, hlenient]
    rfl

theorem choicesAt_of_holds
    {yaml : Yaml.Reader} {root : Files.Entry} {path : String} {entries : Entries}
    (h : Holds yaml root path entries)
    (strict : Bool) :
    (choicesAt yaml root strict path).outcome =
      (chooseFrom strict {} entries).outcome.mapError fun
        | .problem problem => .refused (.invalid problem)
        | .limit fault => .limit fault := by
  rw [choicesAt, entriesAt_of_holds h]
  rfl

/-- A lenient reading fails exactly where no reading expects a fault. -/
theorem lenient_load_eq_error_iff
    {yaml : Yaml.Reader} {root : Files.Entry} {env : Environment} {path : String}
    {fault : LoadFault} :
    (load yaml root env false (some path)).outcome = .error fault ↔
      Unexpected yaml root path fault := by
  constructor
  · intro hload
    rcases barred_or_broken_or_holds yaml root path with
      ⟨found, hbarred⟩ | ⟨refusal, hbroken⟩ | ⟨entries, hholds⟩
    · rw [load_of_barred hbarred, Except.error.injEq] at hload
      exact Or.inl (hload ▸ hbarred)
    · rw [(load_of_broken hbroken env).2] at hload
      cases hload
    · rw [outcome_load, Outcome.map_eq_error_iff, choicesAt_of_holds hholds,
        Outcome.mapError_eq_error_iff] at hload
      obtain ⟨found, hfound, rfl⟩ := hload
      rcases outcome_chooseFrom_of_error hfound with
        ⟨hstrict, _⟩ | ⟨rfl, hentry⟩
      · cases hstrict
      · exact Or.inr ⟨rfl, entries, hholds, hentry⟩
  · rintro (hbarred | ⟨rfl, entries, hholds, entry, hmem, hentry⟩)
    · exact load_of_barred hbarred env false
    · rw [outcome_load, choicesAt_of_holds hholds,
        outcome_chooseFrom_lenient hmem hentry]
      rfl

/-- A strict reading fails with a refusal, or where no reading expects a fault. -/
theorem strict_load_of_error
    {yaml : Yaml.Reader} {root : Files.Entry} {env : Environment} {path : String}
    {fault : LoadFault}
    (h : (load yaml root env true (some path)).outcome = .error fault) :
    (∃ refusal : Refusal, fault = .refused refusal) ∨
    Unexpected yaml root path fault := by
  rcases barred_or_broken_or_holds yaml root path with
    ⟨found, hbarred⟩ | ⟨refusal, hbroken⟩ | ⟨entries, hholds⟩
  · rw [load_of_barred hbarred, Except.error.injEq] at h
    exact Or.inr (Or.inl (h ▸ hbarred))
  · rw [(load_of_broken hbroken env).1, Except.error.injEq] at h
    exact Or.inl ⟨refusal, h.symm⟩
  · rw [outcome_load, Outcome.map_eq_error_iff, choicesAt_of_holds hholds,
      Outcome.mapError_eq_error_iff] at h
    obtain ⟨found, hfound, rfl⟩ := h
    rcases outcome_chooseFrom_of_error hfound with
      ⟨_, problem, rfl⟩ | ⟨rfl, hentry⟩
    · exact Or.inl ⟨.invalid problem, rfl⟩
    · exact Or.inr (Or.inr ⟨rfl, entries, hholds, hentry⟩)

/--
Unexpected faults apart, a lenient reading always comes to settings, and a
strict one comes to settings or refuses.  A missing or broken file leaves a
lenient reading with one warning, the defaults and the environment.
-/
theorem load_contains_expected_faults
    (yaml : Yaml.Reader)
    (root : Files.Entry)
    (env : Environment)
    (path : String) :
    (∀ fault : LoadFault,
      (load yaml root env false (some path)).outcome = .error fault ↔
        Unexpected yaml root path fault) ∧
    (∀ fault : LoadFault,
      (load yaml root env true (some path)).outcome = .error fault →
        (∃ refusal : Refusal, fault = .refused refusal) ∨
        Unexpected yaml root path fault) ∧
    (∀ refusal : Refusal,
      Broken yaml root path refusal →
        load yaml root env false (some path) =
          ⟨.ok (({} : Settings).choose env.choices), [refusal.warning]⟩ ∧
        (load yaml root env true (some path)).outcome = .error (.refused refusal)) := by
  refine ⟨fun fault => lenient_load_eq_error_iff,
    fun fault => strict_load_of_error, ?_⟩
  intro refusal hbroken
  obtain ⟨hstrict, hlenient⟩ := load_of_broken hbroken env
  exact ⟨hlenient, hstrict⟩

/-- A directory in place of the file, and a file that is no text, end both
readings with a fault that is no refusal. -/
theorem load_of_directory_and_octet :
    (∀ (yaml : Yaml.Reader) (strict : Bool),
      (load yaml (.directory [("conf", .directory [])]) [] strict (some "conf")).outcome =
        .error (.unreadable (.refused .isADirectory "conf"))) ∧
    (∀ (yaml : Yaml.Reader) (strict : Bool),
      (load yaml (.directory [("conf", .file [0xFF])]) [] strict (some "conf")).outcome =
        .error (.undecodable ⟨0, [0xFF], .start⟩)) := by
  constructor
  · intro yaml strict
    rfl
  · intro yaml strict
    rfl

end Loading

end Settings
end HaskellTags
