import HaskellTags.Proofs.Settings.Containment
import HaskellTags.Proofs.Text.Digits

/-!
# Settings key by key

Each entry of a settings file is accepted or rejected by itself: `Accepted` says which
values a key takes, without the reading.  A strict reading and a lenient one look at the
same entries in the same order, and differ only in what they do about a rejected one.

So the strict reading comes to settings exactly if the lenient one comes to them without a
warning, and it stops at what the lenient one warns about first.  The lenient one warns once
about each rejected entry, and what it sets a key to depends on the value under this key
alone.

There is one fault that breaks this.  The warning about a rejected entry shows the entry,
and an integer with too many digits cannot be shown: then neither reading comes to
anything, whatever the other entries are.
-/

namespace HaskellTags
namespace Settings

section Accepting

/-- The values that a key takes. -/
def Key.Admits : Key → Value → Prop
  | .extensions, v | .excludedDirs, v =>
    (∃ s, v = .text s) ∨ ∃ texts : List String, v = .list (texts.map Value.text)
  | .sortOutput, v | .emitHeader, v | .continueOnError, v => ∃ b, v = .scalar (.bool b)
  | .format, v => ∃ format ∈ Format.all, v = .text format.name

/-- An entry with a key that is known and takes its value. -/
def Accepted (entry : Scalar × Value) : Prop :=
  ∃ key : Key, entry.1 = .text key.name ∧ key.Admits entry.2

theorem ofScalar?_eq_some_iff
    {scalar : Scalar} {key : Key} :
    Key.ofScalar? scalar = some key ↔ scalar = .text key.name := by
  constructor
  · intro h
    cases scalar with
    | text s =>
        have hname : key.name = s := by
          simpa using List.find?_some h
        rw [hname]
    | _ =>
        cases h
  · rintro rfl
    cases key <;> rfl

theorem key_eq_of_name
    {key other : Key}
    (h : Scalar.text key.name = .text other.name) :
    key = other := by
  have hkey : Key.ofScalar? (.text key.name) = some key := ofScalar?_eq_some_iff.2 rfl
  rw [ofScalar?_eq_some_iff.2 h] at hkey
  exact (Option.some.inj hkey).symm

theorem text?_eq_some_iff
    {v : Value} {s : String} :
    v.text? = some s ↔ v = .text s := by
  constructor
  · intro h
    unfold Value.text? at h
    split at h
    · cases h
      rfl
    · cases h
  · rintro rfl
    rfl

theorem bool?_eq_some_iff
    {v : Value} {b : Bool} :
    v.bool? = some b ↔ v = .scalar (.bool b) := by
  constructor
  · intro h
    unfold Value.bool? at h
    split at h
    · cases h
      rfl
    · cases h
  · rintro rfl
    rfl

theorem mapM_text?_eq_some_iff
    {items : List Value} {texts : List String} :
    items.mapM Value.text? = some texts ↔ items = texts.map Value.text := by
  induction items generalizing texts with
  | nil =>
      cases texts <;> simp
  | cons item items ih =>
      simp only [List.mapM_cons, Option.bind_eq_bind, Option.bind_eq_some_iff,
        text?_eq_some_iff, ih, Option.pure_def, Option.some.injEq]
      constructor
      · rintro ⟨s, rfl, rest, rfl, rfl⟩
        rfl
      · intro h
        cases texts with
        | nil =>
            cases h
        | cons s rest =>
            obtain ⟨hitem, hitems⟩ := List.cons.inj h
            exact ⟨s, hitem, rest, hitems, rfl⟩

theorem exists_textsOf?_iff
    {v : Value} :
    (∃ texts, textsOf? v = some texts) ↔
      (∃ s, v = .text s) ∨ ∃ texts : List String, v = .list (texts.map Value.text) := by
  constructor
  · rintro ⟨texts, htexts⟩
    unfold textsOf? at htexts
    split at htexts
    · exact .inl ⟨_, rfl⟩
    · exact .inr ⟨texts, by rw [mapM_text?_eq_some_iff.1 htexts]⟩
    · cases htexts
  · rintro (⟨s, rfl⟩ | ⟨texts, rfl⟩)
    · exact ⟨[s], rfl⟩
    · exact ⟨texts, mapM_text?_eq_some_iff.2 rfl⟩

theorem exists_textsFor_iff
    {key : Key} {v : Value} :
    (∃ texts, textsFor key v = .ok texts) ↔ ∃ texts, textsOf? v = some texts := by
  unfold textsFor
  cases textsOf? v <;> simp

theorem exists_boolFor_iff
    {key : Key} {v : Value} :
    (∃ b, boolFor key v = .ok b) ↔ ∃ b, v = .scalar (.bool b) := by
  simp only [← bool?_eq_some_iff]
  unfold boolFor
  cases v.bool? <;> simp

theorem ofName?_eq_some_iff
    {name : String} {format : Format} :
    Format.ofName? name = some format ↔ format ∈ Format.all ∧ name = format.name := by
  constructor
  · intro h
    have hname : format.name = name := by
      simpa using List.find?_some h
    exact ⟨List.mem_of_find?_eq_some h, hname.symm⟩
  · rintro ⟨hformat, rfl⟩
    rw [Format.all, List.mem_pair] at hformat
    rcases hformat with rfl | rfl <;> rfl

theorem text?_bind_ofName?_eq_some_iff
    {v : Value} {format : Format} :
    v.text?.bind Format.ofName? = some format ↔
      format ∈ Format.all ∧ v = .text format.name := by
  simp only [Option.bind_eq_some_iff, text?_eq_some_iff, ofName?_eq_some_iff]
  constructor
  · rintro ⟨name, rfl, hformat, rfl⟩
    exact ⟨hformat, rfl⟩
  · rintro ⟨hformat, rfl⟩
    exact ⟨_, rfl, hformat, rfl⟩

theorem exists_formatFor_iff
    {v : Value} :
    (∃ format, formatFor v = .ok format) ↔
      ∃ format ∈ Format.all, v = .text format.name := by
  simp only [← text?_bind_ofName?_eq_some_iff]
  unfold formatFor
  cases v.text?.bind Format.ofName? <;> simp

/-- A value chooses something under a key exactly if the key takes it. -/
theorem exists_choiceFor_iff
    {key : Key} {v : Value} :
    (∃ choice, choiceFor key v = .ok choice) ↔ key.Admits v := by
  cases key with
  | extensions | excludedDirs =>
      exact Outcome.exists_map_eq_ok_iff.trans (exists_textsFor_iff.trans exists_textsOf?_iff)
  | sortOutput | emitHeader | continueOnError =>
      exact Outcome.exists_map_eq_ok_iff.trans exists_boolFor_iff
  | format =>
      exact Outcome.exists_map_eq_ok_iff.trans exists_formatFor_iff

theorem choiceOf_of_key
    {key : Key} {v : Value} :
    choiceOf (.text key.name, v) = choiceFor key v := by
  have hkey : Key.ofScalar? (.text key.name) = some key := ofScalar?_eq_some_iff.2 rfl
  simp only [choiceOf, hkey]

theorem choiceOf_of_unknown
    {scalar : Scalar}
    (hkey : ∀ key : Key, scalar ≠ .text key.name)
    (v : Value) :
    choiceOf (scalar, v) = .error (showing .unknownKey scalar.shownPlain) := by
  have hnone : Key.ofScalar? scalar = none := by
    rw [Option.eq_none_iff_forall_ne_some]
    intro key h
    exact hkey key (ofScalar?_eq_some_iff.1 h)
  simp only [choiceOf, hnone]

theorem accepted_iff
    {key : Key} {v : Value} :
    Accepted (.text key.name, v) ↔ key.Admits v := by
  constructor
  · rintro ⟨other, hname, h⟩
    rw [key_eq_of_name hname]
    exact h
  · intro h
    exact ⟨key, rfl, h⟩

/-- An entry chooses something exactly if it is accepted. -/
theorem exists_choiceOf_iff
    {entry : Scalar × Value} :
    (∃ choice, choiceOf entry = .ok choice) ↔ Accepted entry := by
  obtain ⟨scalar, v⟩ := entry
  by_cases hkey : ∃ key : Key, scalar = .text key.name
  · obtain ⟨key, rfl⟩ := hkey
    rw [choiceOf_of_key, exists_choiceFor_iff, accepted_iff]
  · have hunknown : ∀ key : Key, scalar ≠ .text key.name :=
      fun key h => hkey ⟨key, h⟩
    rw [choiceOf_of_unknown hunknown]
    constructor
    · rintro ⟨choice, h⟩
      cases h
    · rintro ⟨key, hname, -⟩
      exact absurd hname (hunknown key)

instance (entry : Scalar × Value) : Decidable (Accepted entry) :=
  decidable_of_iff ((choiceOf entry).toOption.isSome = true) (by
    rw [← exists_choiceOf_iff, Option.isSome_iff_exists]
    simp only [Outcome.toOption_eq_some_iff])

end Accepting

section Reading

/-- The warning of a lenient reading about a problem. -/
def Problem.warning (problem : Problem) : Log.Record :=
  .of .warning .settings (problem.message ++ "; ignoring")

variable {entry : Scalar × Value}

theorem chooseFrom_of_ok
    {choice : Choices}
    (h : choiceOf entry = .ok choice)
    (strict : Bool)
    (chosen : Choices)
    (rest : Entries) :
    chooseFrom strict chosen (entry :: rest) = chooseFrom strict (choice.over chosen) rest := by
  rw [chooseFrom, h]

theorem chooseFrom_of_limit
    {fault : Decimal.LimitFault}
    (h : choiceOf entry = .error (.limit fault))
    (strict : Bool)
    (chosen : Choices)
    (rest : Entries) :
    chooseFrom strict chosen (entry :: rest) = ⟨.error (.limit fault), []⟩ := by
  rw [chooseFrom, h]
  rfl

theorem strict_chooseFrom_of_problem
    {problem : Problem}
    (h : choiceOf entry = .error (.problem problem))
    (chosen : Choices)
    (rest : Entries) :
    chooseFrom true chosen (entry :: rest) = ⟨.error (.problem problem), []⟩ := by
  rw [chooseFrom, h]
  rfl

theorem lenient_chooseFrom_of_problem
    {problem : Problem}
    (h : choiceOf entry = .error (.problem problem))
    (chosen : Choices)
    (rest : Entries) :
    chooseFrom false chosen (entry :: rest) =
      ⟨(chooseFrom false chosen rest).outcome,
        problem.warning :: (chooseFrom false chosen rest).notes⟩ := by
  rw [chooseFrom, h]
  rfl

/-- Without a warning the two readings are one. -/
theorem strict_chooseFrom_of_silent
    {entries : Entries} {chosen : Choices}
    (h : (chooseFrom false chosen entries).notes = []) :
    chooseFrom true chosen entries = chooseFrom false chosen entries := by
  induction entries generalizing chosen with
  | nil =>
      rfl
  | cons entry rest ih =>
      cases hchoice : choiceOf entry with
      | ok choice =>
          rw [chooseFrom_of_ok hchoice] at h
          rw [chooseFrom_of_ok hchoice, chooseFrom_of_ok hchoice]
          exact ih h
      | error fault =>
          cases fault with
          | limit fault =>
              rw [chooseFrom_of_limit hchoice, chooseFrom_of_limit hchoice]
          | problem problem =>
              rw [lenient_chooseFrom_of_problem hchoice] at h
              cases h

/-- A strict reading stops at what a lenient one warns about first. -/
theorem strict_chooseFrom_of_warning
    {entries : Entries} {chosen : Choices} {first : Log.Record} {more : List Log.Record}
    (h : (chooseFrom false chosen entries).notes = first :: more) :
    ∃ problem : Problem,
      chooseFrom true chosen entries = ⟨.error (.problem problem), []⟩ ∧
        first = problem.warning := by
  induction entries generalizing chosen with
  | nil =>
      cases h
  | cons entry rest ih =>
      cases hchoice : choiceOf entry with
      | ok choice =>
          rw [chooseFrom_of_ok hchoice] at h ⊢
          exact ih h
      | error fault =>
          cases fault with
          | limit fault =>
              rw [chooseFrom_of_limit hchoice] at h
              cases h
          | problem problem =>
              rw [lenient_chooseFrom_of_problem hchoice] at h
              cases h
              exact ⟨problem, strict_chooseFrom_of_problem hchoice chosen rest, rfl⟩

/-- A strict reading comes to what a lenient one comes to without a warning. -/
theorem strict_chooseFrom_eq_ok_iff
    (entries : Entries)
    (chosen S : Choices) :
    (chooseFrom true chosen entries).outcome = .ok S ↔
      chooseFrom false chosen entries = ⟨.ok S, []⟩ := by
  constructor
  · intro hstrict
    cases hnotes : (chooseFrom false chosen entries).notes with
    | nil =>
        rw [strict_chooseFrom_of_silent hnotes] at hstrict
        rw [← hstrict, ← hnotes]
    | cons first more =>
        obtain ⟨problem, hproblem, -⟩ := strict_chooseFrom_of_warning hnotes
        rw [hproblem] at hstrict
        cases hstrict
  · intro hlenient
    have hsilent : (chooseFrom false chosen entries).notes = [] := by
      rw [hlenient]
    rw [strict_chooseFrom_of_silent hsilent, hlenient]

/-- A lenient reading warns once about each rejected entry, in their order. -/
theorem warnings_of_lenient
    {entries : Entries}
    (hwords : ∀ entry ∈ entries, ¬ Unwordable entry)
    (chosen : Choices) :
    List.Forall₂
      (fun entry note => ∃ problem : Problem,
        choiceOf entry = .error (.problem problem) ∧ note = problem.warning)
      (entries.filter fun entry => ¬ Accepted entry)
      (chooseFrom false chosen entries).notes := by
  induction entries generalizing chosen with
  | nil =>
      exact .nil
  | cons entry rest ih =>
      obtain ⟨hword, hrest⟩ := List.forall_mem_cons.1 hwords
      cases hchoice : choiceOf entry with
      | ok choice =>
          have haccepted : Accepted entry := exists_choiceOf_iff.1 ⟨choice, hchoice⟩
          rw [chooseFrom_of_ok hchoice, List.filter_cons_of_neg (by simpa using haccepted)]
          exact ih hrest (choice.over chosen)
      | error fault =>
          have hrejected : ¬ Accepted entry := by
            rw [← exists_choiceOf_iff, hchoice]
            rintro ⟨choice, h⟩
            cases h
          rw [List.filter_cons_of_pos (by simpa using hrejected)]
          cases fault with
          | limit fault =>
              cases choiceOf_limit hchoice
              exact absurd hchoice hword
          | problem problem =>
              rw [lenient_chooseFrom_of_problem hchoice]
              exact .cons ⟨problem, hchoice, rfl⟩ (ih hrest chosen)

/-- A lenient reading comes to settings unless a warning cannot be put into words. -/
theorem exists_lenient_chooseFrom
    {entries : Entries}
    (hwords : ∀ entry ∈ entries, ¬ Unwordable entry)
    (chosen : Choices) :
    ∃ S, (chooseFrom false chosen entries).outcome = .ok S := by
  cases houtcome : (chooseFrom false chosen entries).outcome with
  | ok S =>
      exact ⟨S, rfl⟩
  | error fault =>
      rcases outcome_chooseFrom_of_error houtcome with ⟨hstrict, -⟩ | ⟨-, entry, hmem, hentry⟩
      · cases hstrict
      · exact absurd hentry (hwords entry hmem)

end Reading

section Keys

/-- What choices say about one key. -/
def Choices.only (c : Choices) : Key → Choices
  | .extensions => { extensions := c.extensions }
  | .excludedDirs => { excludedDirs := c.excludedDirs }
  | .sortOutput => { sortOutput := c.sortOutput }
  | .emitHeader => { emitHeader := c.emitHeader }
  | .continueOnError => { continueOnError := c.continueOnError }
  | .format => { format := c.format }

/-- What a key is set to by the value under it; by none, or by one that it does not take,
it is not set. -/
def Key.setBy (key : Key) (value : Option Value) : Choices :=
  ((value.bind fun v => (choiceFor key v).toOption).getD {})

/-- No key stands twice in a mapping. -/
def Distinct (entries : Entries) : Prop :=
  entries.Pairwise fun e e' => e.1.sameKey e'.1 = false

instance (entries : Entries) : Decidable (Distinct entries) :=
  inferInstanceAs (Decidable (entries.Pairwise fun e e' => e.1.sameKey e'.1 = false))

theorem empty_over
    (c : Choices) :
    Choices.over {} c = c := by
  rfl

theorem over_empty
    (c : Choices) :
    c.over {} = c := by
  simp [Choices.over]

theorem only_over
    (higher lower : Choices)
    (key : Key) :
    (higher.over lower).only key = (higher.only key).over (lower.only key) := by
  cases key <;> rfl

/-- What a value chooses under a key is about this key alone. -/
theorem only_of_choiceFor
    {key : Key} {v : Value} {choice : Choices}
    (h : choiceFor key v = .ok choice)
    (other : Key) :
    choice.only other = if other = key then choice else {} := by
  cases key <;> obtain ⟨_, -, rfl⟩ := Outcome.map_eq_ok_iff.1 h <;> cases other <;> rfl

theorem setBy_of_ok
    {key : Key} {v : Value} {choice : Choices}
    (h : choiceFor key v = .ok choice) :
    key.setBy (some v) = choice := by
  simp [Key.setBy, h, Except.toOption]

theorem setBy_of_error
    {key : Key} {v : Value} {fault : EntryFault}
    (h : choiceFor key v = .error fault) :
    key.setBy (some v) = {} := by
  simp [Key.setBy, h, Except.toOption]

theorem get?_map_cons
    (name : String)
    (entry : Scalar × Value)
    (rest : Entries) :
    Value.get? name (.map (entry :: rest)) =
      if entry.1 = .text name then some entry.2 else Value.get? name (.map rest) := by
  simp only [Value.get?, List.find?_cons]
  by_cases hname : entry.1 = .text name
  · simp [hname]
  · simp [hname]

theorem not_mem_of_distinct
    {name : String} {entry : Scalar × Value} {rest : Entries}
    (hdistinct : Distinct (entry :: rest))
    (hname : entry.1 = .text name)
    (v : Value) :
    (.text name, v) ∉ rest := by
  intro hmem
  have hother := (List.pairwise_cons.1 hdistinct).1 _ hmem
  rw [hname] at hother
  simp [Scalar.sameKey] at hother

/-- A mapping has one value under a key. -/
theorem get?_eq_some_iff
    {entries : Entries}
    (hdistinct : Distinct entries)
    {name : String} {v : Value} :
    Value.get? name (.map entries) = some v ↔ (.text name, v) ∈ entries := by
  induction entries with
  | nil =>
      simp [Value.get?]
  | cons entry rest ih =>
      rw [get?_map_cons, List.mem_cons]
      by_cases hname : entry.1 = .text name
      · have hlater := not_mem_of_distinct hdistinct hname v
        rw [if_pos hname, ← hname]
        constructor
        · intro h
          cases h
          exact .inl rfl
        · rintro (heq | hmem)
          · rw [← heq]
          · exact absurd (hname ▸ hmem) hlater
      · rw [if_neg hname, ih hdistinct.of_cons]
        constructor
        · exact .inr
        · rintro (rfl | hmem)
          · exact absurd rfl hname
          · exact hmem

/-- A lenient reading that comes to settings has taken or passed over its first entry. -/
theorem lenient_chooseFrom_cons
    {entry : Scalar × Value} {rest : Entries} {chosen S : Choices}
    (h : (chooseFrom false chosen (entry :: rest)).outcome = .ok S) :
    (∃ choice, choiceOf entry = .ok choice ∧
        (chooseFrom false (choice.over chosen) rest).outcome = .ok S) ∨
      ∃ fault, choiceOf entry = .error fault ∧
        (chooseFrom false chosen rest).outcome = .ok S := by
  cases hchoice : choiceOf entry with
  | ok choice =>
      rw [chooseFrom_of_ok hchoice] at h
      exact .inl ⟨choice, rfl, h⟩
  | error fault =>
      cases fault with
      | limit fault =>
          rw [chooseFrom_of_limit hchoice] at h
          cases h
      | problem problem =>
          rw [lenient_chooseFrom_of_problem hchoice] at h
          exact .inr ⟨_, rfl, h⟩

/-- An entry under another key chooses nothing for a key. -/
theorem only_of_other_key
    {entry : Scalar × Value} {choice : Choices} {key : Key}
    (h : choiceOf entry = .ok choice)
    (hname : entry.1 ≠ .text key.name) :
    choice.only key = {} := by
  obtain ⟨scalar, v⟩ := entry
  obtain ⟨other, hother, -⟩ := exists_choiceOf_iff.1 ⟨choice, h⟩
  cases hother
  rw [choiceOf_of_key] at h
  rw [only_of_choiceFor h, if_neg]
  rintro rfl
  exact hname rfl

/-- What a lenient reading comes to for a key is what the value under it says. -/
theorem only_of_lenient
    {entries : Entries} {chosen S : Choices}
    (hdistinct : Distinct entries)
    (h : (chooseFrom false chosen entries).outcome = .ok S)
    (key : Key) :
    S.only key =
      (key.setBy (Value.get? key.name (.map entries))).over (chosen.only key) := by
  induction entries generalizing chosen with
  | nil =>
      cases h
      exact (empty_over _).symm
  | cons entry rest ih =>
      rw [get?_map_cons]
      by_cases hname : entry.1 = .text key.name
      · -- The value under the key: the entries after it say nothing about the key.
        have hnone : Value.get? key.name (.map rest) = none := by
          rw [Option.eq_none_iff_forall_ne_some]
          intro v hv
          exact not_mem_of_distinct hdistinct hname v
            ((get?_eq_some_iff hdistinct.of_cons).1 hv)
        have hentry : choiceOf entry = choiceFor key entry.2 := by
          rw [← choiceOf_of_key, ← hname]
        rw [if_pos hname]
        rcases lenient_chooseFrom_cons h with ⟨choice, hchoice, hrest⟩ | ⟨fault, hfault, hrest⟩
        · rw [hentry] at hchoice
          rw [ih hdistinct.of_cons hrest, hnone, setBy_of_ok hchoice, only_over,
            only_of_choiceFor hchoice, if_pos rfl]
          rfl
        · rw [hentry] at hfault
          rw [ih hdistinct.of_cons hrest, hnone, setBy_of_error hfault]
          rfl
      · rw [if_neg hname]
        rcases lenient_chooseFrom_cons h with ⟨choice, hchoice, hrest⟩ | ⟨fault, -, hrest⟩
        · rw [ih hdistinct.of_cons hrest, only_over, only_of_other_key hchoice hname, empty_over]
        · exact ih hdistinct.of_cons hrest

theorem only_empty
    (key : Key) :
    Choices.only {} key = {} := by
  cases key <;> rfl

theorem only_of_ofEntries
    {entries : Entries} {S : Choices}
    (hdistinct : Distinct entries)
    (h : (ofEntries false entries).outcome = .ok S)
    (key : Key) :
    S.only key = key.setBy (Value.get? key.name (.map entries)) := by
  rw [only_of_lenient hdistinct h, only_empty, over_empty]

/-- Mappings with the same value under a key set it alike. -/
theorem only_eq_only
    {entries entries' : Entries} {S S' : Choices}
    (hdistinct : Distinct entries)
    (hdistinct' : Distinct entries')
    (h : (ofEntries false entries).outcome = .ok S)
    (h' : (ofEntries false entries').outcome = .ok S')
    {key : Key}
    (hsame : ∀ v, (.text key.name, v) ∈ entries' ↔ (.text key.name, v) ∈ entries) :
    S'.only key = S.only key := by
  have hget : Value.get? key.name (.map entries') = Value.get? key.name (.map entries) := by
    ext v
    rw [get?_eq_some_iff hdistinct', get?_eq_some_iff hdistinct, hsame]
  rw [only_of_ofEntries hdistinct' h', only_of_ofEntries hdistinct h, hget]

end Keys

section Words

/-- A rejected entry whose warning would show an integer with too many digits: in the key if
it is not known, or in a value that names no format. -/
def Unshowable (entry : Scalar × Value) : Prop :=
  ¬ Accepted entry ∧
    (((∀ key : Key, entry.1 ≠ .text key.name) ∧ entry.1.isShowable = false) ∨
      (entry.1 = .text Key.format.name ∧ entry.2.isShowable = false))

theorem showing_eq_limit_iff
    {problem : String → Problem} {shown : Except Decimal.LimitFault String} :
    showing problem shown = .limit .writing ↔ shown = .error .writing := by
  constructor
  · exact limit_of_showing
  · rintro rfl
    rfl

theorem shown_eq_error_iff
    {v : Value} :
    v.shown = .error .writing ↔ v.isShowable = false := by
  unfold Value.shown
  cases v.isShowable <;> simp

theorem shownPlain_eq_error_iff
    {scalar : Scalar} :
    scalar.shownPlain = .error .writing ↔ scalar.isShowable = false := by
  unfold Scalar.shownPlain
  cases scalar.isShowable <;> simp

theorem formatFor_of_not_admits
    {v : Value}
    (h : ¬ Key.format.Admits v) :
    formatFor v = .error (showing .unknownFormat v.shown) := by
  have hnone : v.text?.bind Format.ofName? = none := by
    rw [Option.eq_none_iff_forall_ne_some]
    intro format hformat
    exact h ⟨format, text?_bind_ofName?_eq_some_iff.1 hformat⟩
  simp only [formatFor, hnone]

/-- Only a format is shown when it is refused. -/
theorem choiceFor_eq_limit_iff
    {key : Key} {v : Value} :
    choiceFor key v = .error (.limit .writing) ↔
      key = .format ∧ ¬ key.Admits v ∧ v.isShowable = false := by
  cases key with
  | extensions | excludedDirs =>
      refine iff_of_false (fun h => ?_) (fun h => Key.noConfusion h.1)
      exact textsFor_ne_limit _ _ _ (Outcome.map_eq_error_iff.1 h)
  | sortOutput | emitHeader | continueOnError =>
      refine iff_of_false (fun h => ?_) (fun h => Key.noConfusion h.1)
      exact boolFor_ne_limit _ _ _ (Outcome.map_eq_error_iff.1 h)
  | format =>
      by_cases hadmits : Key.format.Admits v
      · refine iff_of_false (fun h => ?_) (fun h => h.2.1 hadmits)
        obtain ⟨choice, hchoice⟩ := exists_choiceFor_iff.2 hadmits
        rw [hchoice] at h
        cases h
      · rw [choiceFor, Outcome.map_eq_error_iff, formatFor_of_not_admits hadmits,
          Except.error.injEq, showing_eq_limit_iff, shown_eq_error_iff]
        constructor
        · intro h
          exact ⟨rfl, hadmits, h⟩
        · exact fun h => h.2.2

/-- These are the entries whose problem cannot be put into words. -/
theorem unwordable_iff
    {entry : Scalar × Value} :
    Unwordable entry ↔ Unshowable entry := by
  obtain ⟨scalar, v⟩ := entry
  by_cases hkey : ∃ key : Key, scalar = .text key.name
  · obtain ⟨key, rfl⟩ := hkey
    rw [Unwordable, choiceOf_of_key, choiceFor_eq_limit_iff, Unshowable, accepted_iff]
    constructor
    · rintro ⟨rfl, hadmits, h⟩
      exact ⟨hadmits, .inr ⟨rfl, h⟩⟩
    · rintro ⟨hadmits, ⟨hunknown, -⟩ | ⟨hname, h⟩⟩
      · exact absurd rfl (hunknown key)
      · exact ⟨key_eq_of_name hname, hadmits, h⟩
  · have hunknown : ∀ key : Key, scalar ≠ .text key.name :=
      fun key h => hkey ⟨key, h⟩
    have hrejected : ¬ Accepted (scalar, v) := by
      rintro ⟨key, hname, -⟩
      exact hunknown key hname
    rw [Unwordable, choiceOf_of_unknown hunknown, Except.error.injEq, showing_eq_limit_iff,
      shownPlain_eq_error_iff]
    constructor
    · intro h
      exact ⟨hrejected, .inl ⟨hunknown, h⟩⟩
    · rintro ⟨-, ⟨-, h⟩ | ⟨hname, -⟩⟩
      · exact h
      · exact absurd hname (hunknown .format)

theorem isShowable_scalar
    (scalar : Scalar) :
    (Value.scalar scalar).isShowable = scalar.isShowable := by
  rw [Value.isShowable]

theorem not_unshowable
    {entry : Scalar × Value}
    (hkey : entry.1.isShowable = true)
    (hvalue : entry.2.isShowable = true) :
    ¬ Unshowable entry := by
  rintro ⟨-, ⟨-, h⟩ | ⟨-, h⟩⟩
  · rw [hkey] at h
    cases h
  · rw [hvalue] at h
    cases h

end Words

section Agreement

/-- The strict and the lenient reading of a mapping agree key by key, unless it has an entry
whose problem cannot be put into words.  With such an entry the lenient reading fails, and so
does the strict one if nothing has stopped it before. -/
theorem readings_agree_key_by_key
    (entries : Entries) :
    (∀ S : Choices,
      (ofEntries true entries).outcome = .ok S ↔ ofEntries false entries = ⟨.ok S, []⟩) ∧
    (∀ first more,
      (ofEntries false entries).notes = first :: more →
        ∃ problem : Problem,
          ofEntries true entries = ⟨.error (.problem problem), []⟩ ∧
            first = problem.warning) ∧
    ((∃ entry ∈ entries, Unshowable entry) →
      (ofEntries false entries).outcome = .error (.limit .writing) ∧
        ((ofEntries false entries).notes = [] →
          ofEntries true entries = ⟨.error (.limit .writing), []⟩)) ∧
    ((∀ entry ∈ entries, ¬ Unshowable entry) →
      ∃ S : Choices,
        (ofEntries false entries).outcome = .ok S ∧
        List.Forall₂
          (fun entry note => ∃ problem : Problem,
            choiceOf entry = .error (.problem problem) ∧ note = problem.warning)
          (entries.filter fun entry => ¬ Accepted entry)
          (ofEntries false entries).notes ∧
        (Distinct entries →
          ∀ key : Key,
            S.only key = key.setBy (Value.get? key.name (.map entries)) ∧
            ∀ (entries' : Entries) (S' : Choices),
              Distinct entries' →
              (ofEntries false entries').outcome = .ok S' →
              (∀ v, (.text key.name, v) ∈ entries' ↔ (.text key.name, v) ∈ entries) →
              S'.only key = S.only key)) := by
  simp only [← unwordable_iff]
  refine ⟨strict_chooseFrom_eq_ok_iff entries {}, fun _ _ => strict_chooseFrom_of_warning,
    ?_, ?_⟩
  · rintro ⟨entry, hmem, hentry⟩
    have hfault : (ofEntries false entries).outcome = .error (.limit .writing) :=
      outcome_chooseFrom_lenient hmem hentry {}
    refine ⟨hfault, ?_⟩
    intro hsilent
    rw [← hfault, ← hsilent]
    exact strict_chooseFrom_of_silent hsilent
  · intro hwords
    obtain ⟨S, hS⟩ := exists_lenient_chooseFrom hwords {}
    refine ⟨S, hS, warnings_of_lenient hwords {}, ?_⟩
    intro hdistinct key
    refine ⟨only_of_ofEntries hdistinct hS key, ?_⟩
    intro entries' S' hdistinct' hS' hsame
    exact only_eq_only hdistinct hdistinct' hS hS' hsame

namespace Sample

/-- A flag, a key that is not known, and a flag that is no truth value. -/
def entries : Entries :=
  [(.text "sort_output", .scalar (.bool false)), (.text "colour", .null),
    (.text "emit_header", .text "yes")]

/-- The least integer with too many digits. -/
def huge : Scalar :=
  .int (Nat.pow 10 Decimal.digitLimit : Nat)

theorem isShowable_huge :
    huge.isShowable = false := by
  rw [huge, Scalar.isShowable, Decimal.isWritable, Bool.eq_false_iff, ne_eq,
    Decimal.isWithin_some_iff (by decide), Int.natAbs_natCast]
  exact Nat.lt_irrefl _

end Sample

/-- The strict reading stops at the key that is not known; the lenient one warns twice and
sets the flag, in whatever order the entries stand. -/
theorem readings_agree_key_by_key_sample :
    (∀ entry ∈ Sample.entries, ¬ Unshowable entry) ∧ Distinct Sample.entries ∧
      (∃ problem : Problem, (ofEntries true Sample.entries).outcome = .error (.problem problem)) ∧
      ∃ S : Choices, (ofEntries false Sample.entries).outcome = .ok S ∧
        (ofEntries false Sample.entries).notes.length = 2 ∧
        S.only .sortOutput = { sortOutput := some false } ∧
        ∀ S' : Choices, (ofEntries false Sample.entries.reverse).outcome = .ok S' →
          S'.only .sortOutput = S.only .sortOutput := by
  have hwords : ∀ entry ∈ Sample.entries, ¬ Unshowable entry := by
    intro entry hentry
    simp only [Sample.entries, List.mem_cons, List.not_mem_nil, or_false] at hentry
    rcases hentry with rfl | rfl | rfl
    · exact not_unshowable rfl (isShowable_scalar _)
    · exact not_unshowable rfl (isShowable_scalar _)
    · exact not_unshowable rfl (isShowable_scalar _)
  have hdistinct : Distinct Sample.entries := by
    decide
  obtain ⟨-, hstrict, -, hlenient⟩ := readings_agree_key_by_key Sample.entries
  obtain ⟨S, hS, hnotes, hkeys⟩ := hlenient hwords
  have hlength : (ofEntries false Sample.entries).notes.length = 2 := by
    rw [← hnotes.length_eq]
    decide
  obtain ⟨first, more, hfirst⟩ := List.exists_cons_of_length_pos (hlength ▸ Nat.two_pos)
  obtain ⟨problem, hproblem, -⟩ := hstrict first more hfirst
  obtain ⟨hset, hsame⟩ := hkeys hdistinct .sortOutput
  refine ⟨hwords, hdistinct, ⟨problem, by rw [hproblem]⟩, S, hS, hlength, ?_, ?_⟩
  · rw [hset]
    decide
  · intro S' hS'
    exact hsame _ S' (by decide) hS' fun v => List.mem_reverse

/-- An integer with too many digits ends both readings, as a key that is not known: there is
no warning about it, and the flag before it is lost. -/
theorem huge_key_ends_both_readings :
    ¬ Accepted (Sample.huge, .null) ∧
      Distinct [(.text "sort_output", .scalar (.bool false)), (Sample.huge, .null)] ∧
      (∀ strict : Bool,
        ofEntries strict [(.text "sort_output", .scalar (.bool false)), (Sample.huge, .null)] =
          ⟨.error (.limit .writing), []⟩) ∧
      ∀ strict : Bool,
        ofEntries strict [(.text "sort_output", .scalar (.bool false))] =
          ⟨.ok { sortOutput := some false }, []⟩ := by
  have hunknown : ∀ key : Key, Sample.huge ≠ .text key.name := nofun
  have hrejected : ¬ Accepted (Sample.huge, .null) := by
    rintro ⟨key, hname, -⟩
    exact hunknown key hname
  have hlimit : Unwordable (Sample.huge, .null) :=
    unwordable_iff.2 ⟨hrejected, .inl ⟨hunknown, Sample.isShowable_huge⟩⟩
  have hflag : choiceOf (.text "sort_output", .scalar (.bool false)) =
      .ok { sortOutput := some false } := rfl
  refine ⟨hrejected, List.pairwise_pair.2 rfl, ?_, ?_⟩
  · intro strict
    rw [ofEntries, chooseFrom_of_ok hflag, chooseFrom_of_limit hlimit]
  · intro strict
    rw [ofEntries, chooseFrom_of_ok hflag]
    rfl

end Agreement

end Settings
end HaskellTags
