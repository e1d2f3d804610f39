import HaskellTags.CommandLine.Arguments
import HaskellTags.Proofs.Journal
import Mathlib.Data.List.Perm.Basic
import Mathlib.Data.List.TakeWhile

/-!
# Canonical command lines

Whatever is asked of the program can be written as a command line in which every option
stands in full, a value is attached to its option by an equals sign, and the paths follow
the divider.  Such a line is read back as it was meant: the texts of values and paths may
look like options, hold spaces or equals signs, or be empty.

One setting is read at a time, and its effect on the arguments does not depend on those of
other options.  So the settings may come in any order.
-/

namespace HaskellTags
namespace CommandLine

section Words

variable {spelling : String} {o : Opt}

/-- No option has an equals sign in its spelling. -/
theorem not_mem_of_ofSpelling?
    (h : Opt.ofSpelling? spelling = some o) :
    '=' ∉ spelling.toList := by
  have htable : ∀ e ∈ Opt.table, '=' ∉ e.1.toList := by decide
  obtain ⟨before, after, hsplit, -⟩ := List.lookup_eq_some_iff.1 h
  apply htable (spelling, o)
  rw [hsplit]
  exact List.mem_append_right before List.mem_cons_self

/-- A text is split at its first equals sign. -/
theorem splitEquals_attached
    (hspelling : '=' ∉ spelling.toList)
    (value : String) :
    splitEquals (spelling ++ "=" ++ value) = (spelling, some value.toList) := by
  have htext : (spelling ++ "=" ++ value).toList = spelling.toList ++ '=' :: value.toList := by
    simp
  have hbefore :
      (spelling.toList ++ '=' :: value.toList).takeWhile (fun c => decide (c ≠ '=')) =
        spelling.toList := by
    rw [List.takeWhile_append_of_pos]
    · simp
    · intro c hc
      rw [decide_eq_true_iff]
      rintro rfl
      exact hspelling hc
  simp only [splitEquals, htext, hbefore, String.ofList_toList]
  simp

/-- An option in full with a value attached. -/
theorem exactOption?_attached
    (hspelling : Opt.ofSpelling? spelling = some o)
    (value : String) :
    exactOption? (spelling ++ "=" ++ value) =
      some (.option o (isShortSpelling spelling) (some value.toList)) := by
  have hwhole : Opt.ofSpelling? (spelling ++ "=" ++ value) = none := by
    rw [Option.eq_none_iff_forall_not_mem]
    intro other hother
    exact not_mem_of_ofSpelling? hother (by simp)
  rw [exactOption?, hwhole]
  simp only [splitEquals_attached (not_mem_of_ofSpelling? hspelling) value, hspelling,
    Option.map_some]

theorem ofText_of_exactOption?
    {text : String} {word : Word}
    (hhead : text.toList.head? = some '-')
    (hword : exactOption? text = some word) :
    Word.ofText text = .ok word := by
  have hdash : text ≠ "-" := by
    rintro rfl
    cases hword
  simp only [Word.ofText, hhead, hdash, hword, ne_eq, not_true_eq_false, decide_false,
    Bool.or_self, Bool.false_eq_true, if_false]

end Words

section Settings

/-- What a command line sets by one option. -/
inductive Setting
  | output (text : String)
  | config (text : String)
  | format (f : Format)
  | logLevel (level : Log.Level)
  | noSort
  | noHeader
  | strict
  deriving DecidableEq, Repr

namespace Setting

/-- The canonical text of a setting. -/
def text : Setting → String
  | .output text => "--output=" ++ text
  | .config text => "--config=" ++ text
  | .format f => "--format=" ++ f.name
  | .logLevel level => "--log-level=" ++ level.name
  | .noSort => "--no-sort"
  | .noHeader => "--no-header"
  | .strict => "--strict"

/-- The option of a setting. -/
def opt : Setting → Opt
  | .output _ => .output
  | .config _ => .config
  | .format _ => .format
  | .logLevel _ => .logLevel
  | .noSort => .noSort
  | .noHeader => .noHeader
  | .strict => .strict

/-- The value of a setting, if its option takes one. -/
def value? : Setting → Option String
  | .output text | .config text => some text
  | .format f => some f.name
  | .logLevel level => some level.name
  | .noSort | .noHeader | .strict => none

/-- The arguments with a setting made. -/
def make (a : Arguments) : Setting → Arguments
  | .output text => { a with output := .text text }
  | .config text => { a with config := some (.text text) }
  | .format f => { a with format := some f }
  | .logLevel level => { a with logLevel := some level }
  | .noSort => { a with noSort := true }
  | .noHeader => { a with noHeader := true }
  | .strict => { a with strict := true }

/-- A setting that a command line can express: a format has a name, and the divider is no
value. -/
def IsPlain : Setting → Prop
  | .output text | .config text => text ≠ dividerText
  | .format f => f ∈ Format.all
  | _ => True

/-- The word that a setting is read as. -/
def word (s : Setting) : Word :=
  .option s.opt false (s.value?.map String.toList)

theorem exactOption?_text
    (s : Setting) :
    exactOption? s.text = some s.word := by
  cases s with
  | output text =>
      have h : Opt.ofSpelling? "--output" = some .output := rfl
      exact exactOption?_attached h text
  | config text =>
      have h : Opt.ofSpelling? "--config" = some .config := rfl
      exact exactOption?_attached h text
  | format f =>
      have h : Opt.ofSpelling? "--format" = some .format := rfl
      exact exactOption?_attached h f.name
  | logLevel level =>
      have h : Opt.ofSpelling? "--log-level" = some .logLevel := rfl
      exact exactOption?_attached h level.name
  | noSort =>
      rfl
  | noHeader =>
      rfl
  | strict =>
      rfl

theorem ofText_text
    (s : Setting) :
    Word.ofText s.text = .ok s.word := by
  refine ofText_of_exactOption? ?_ s.exactOption?_text
  cases s <;> simp only [text, String.toList_append] <;> rfl

theorem text_ne_divider
    (s : Setting) :
    s.text ≠ dividerText := by
  intro heq
  have hword := s.exactOption?_text
  rw [heq] at hword
  cases hword

/-- Settings of different options do not get in each other's way. -/
theorem make_comm
    {s t : Setting}
    (h : s.opt ≠ t.opt)
    (a : Arguments) :
    make (make a s) t = make (make a t) s := by
  cases s <;> cases t <;> simp_all [make, opt]

/-- Where no option is set twice, the order does not matter. -/
theorem foldl_make_of_perm
    {settings settings' : List Setting}
    (hperm : settings.Perm settings')
    (honce : ∀ s ∈ settings, ∀ t ∈ settings, s.opt = t.opt → s = t)
    (a : Arguments) :
    settings.foldl make a = settings'.foldl make a := by
  apply hperm.foldl_eq'
  intro s hs t ht b
  by_cases hopt : s.opt = t.opt
  · rw [honce s hs t ht hopt]
  · exact make_comm hopt b

end Setting

end Settings

section Reading

theorem readWords_of_set
    {o : Opt} {value : String} {p q : Progress}
    (ho : o.takesValue = true)
    (hset : p.set o value = .ok q)
    (rest : List Word) :
    readWords p (.option o false (some value.toList) :: rest) = readWords q rest := by
  have hcluster : cluster o false (some value.toList) = .ok ⟨[], o, some value⟩ := by
    unfold cluster clusterOf
    simp only [ho, if_true, String.ofList_toList]
  rw [readWords, hcluster]
  simp only [Except.mapError, Outcome.ok_bind, List.foldlM_nil, pure_bind, hset]

theorem readWords_of_switch
    {o : Opt} {p q : Progress}
    (ho : o.takesValue = false)
    (hswitch : p.switch o = .ok q)
    (rest : List Word) :
    readWords p (.option o false none :: rest) = readWords q rest := by
  rw [readWords]
  simp only [cluster, Except.mapError, Outcome.ok_bind, List.foldlM_nil, pure_bind, ho, hswitch]

/-- A value other than the divider is taken as it stands, if all values are accepted. -/
theorem valueOf_text
    {o : Opt} {text : String}
    (ho : o.values = none)
    (htext : text ≠ dividerText) :
    Progress.valueOf o text = .ok (.text text) := by
  rw [Progress.valueOf, if_neg htext, ho]

/-- A setting is read by itself. -/
theorem readWords_setting
    {s : Setting}
    (hs : s.IsPlain)
    (p : Progress)
    (rest : List Word) :
    readWords p (s.word :: rest) =
      readWords { p with arguments := s.make p.arguments } rest := by
  cases s with
  | output text =>
      apply readWords_of_set rfl
      rw [Progress.set, valueOf_text rfl hs]
      rfl
  | config text =>
      apply readWords_of_set rfl
      rw [Progress.set, valueOf_text rfl hs]
      rfl
  | format f =>
      apply readWords_of_set rfl
      cases f with
      | ctags =>
          rfl
      | jsonl =>
          rfl
      | unnamed =>
          have hnone : Format.unnamed ∉ Format.all := by decide
          exact absurd hs hnone
  | logLevel level =>
      apply readWords_of_set rfl
      cases level <;> rfl
  | noSort =>
      exact readWords_of_switch rfl rfl rest
  | noHeader =>
      exact readWords_of_switch rfl rfl rest
  | strict =>
      exact readWords_of_switch rfl rfl rest

/-- Settings are made one after another. -/
theorem readWords_settings
    {settings : List Setting}
    (hplain : ∀ s ∈ settings, s.IsPlain)
    (p : Progress)
    (rest : List Word) :
    readWords p (settings.map Setting.word ++ rest) =
      readWords { p with arguments := settings.foldl Setting.make p.arguments } rest := by
  induction settings generalizing p with
  | nil =>
      rfl
  | cons s settings ih =>
      have hs : s.IsPlain := hplain s List.mem_cons_self
      have hrest : ∀ s' ∈ settings, s'.IsPlain := fun s' hmem =>
        hplain s' (List.mem_cons_of_mem s hmem)
      rw [List.map_cons, List.cons_append, readWords_setting hs, ih hrest]
      rfl

/-- All arguments of a run after the divider are paths, another divider among them. -/
theorem take_paths
    {paths : List String}
    (hpaths : paths ≠ [])
    (a : Arguments) :
    Progress.take (.divider :: paths.map Word.argument) ⟨a, false, []⟩ =
      ⟨{ a with paths }, true, []⟩ := by
  have hsome :
      (Word.divider :: paths.map Word.argument).any (fun w => decide (w ≠ .divider)) = true := by
    obtain ⟨first, rest, rfl⟩ := List.exists_cons_of_ne_nil hpaths
    rfl
  have htexts :
      (Word.divider :: paths.map Word.argument).map Word.text = dividerText :: paths := by
    rw [List.map_cons, List.map_map]
    exact congrArg (dividerText :: ·) (List.map_id paths)
  simp only [Progress.take, hsome, htexts, Bool.not_false, Bool.and_self, if_true,
    List.erase_cons_head]

theorem readWords_paths
    {paths : List String}
    (hpaths : paths ≠ [])
    (a : Arguments) :
    readWords ⟨a, false, []⟩ (.divider :: paths.map Word.argument) =
      .ok ⟨{ a with paths }, true, []⟩ := by
  have hall : ∀ w ∈ paths.map Word.argument, w.isArgument = true := by
    intro w hw
    obtain ⟨text, -, rfl⟩ := List.mem_map.1 hw
    rfl
  rw [readWords, List.takeWhile_eq_self_iff.2 hall, List.dropWhile_eq_nil_iff.2 hall,
    take_paths hpaths, readWords]
  · intro text h
    cases h
  · intro o isShort attached h
    cases h

theorem ofTexts_canonical
    (settings : List Setting)
    (paths : List String) :
    Word.ofTexts (settings.map Setting.text ++ dividerText :: paths) =
      .ok (settings.map Setting.word ++ .divider :: paths.map Word.argument) := by
  induction settings with
  | nil =>
      rfl
  | cons s settings ih =>
      rw [List.map_cons, List.cons_append, Word.ofTexts, if_neg s.text_ne_divider,
        s.ofText_text, ih]
      rfl

/-- Plain settings are read in order, and the paths after them. -/
theorem parse_settings
    {settings : List Setting} {paths : List String}
    (hplain : ∀ s ∈ settings, s.IsPlain)
    (hpaths : paths ≠ []) :
    parse (settings.map Setting.text ++ dividerText :: paths) =
      .ok { settings.foldl Setting.make {} with paths } := by
  have hread := readWords_settings hplain {} (.divider :: paths.map Word.argument)
  rw [readWords_paths hpaths] at hread
  simp only [parse, ofTexts_canonical, Except.mapError, Outcome.ok_bind, hread]
  rfl

end Reading

section Requests

/-- What the options of a command line ask for, where they are not left out. -/
structure Request where
  output : Option String := none
  config : Option String := none
  format : Option Format := none
  logLevel : Option Log.Level := none
  noSort : Bool := false
  noHeader : Bool := false
  strict : Bool := false
  deriving DecidableEq, Repr

namespace Request

/-- The setting of an option, unless it is left out. -/
def setting? (r : Request) : Opt → Option Setting
  | .help => none
  | .output => r.output.map Setting.output
  | .format => r.format.map Setting.format
  | .noSort => if r.noSort then some .noSort else none
  | .noHeader => if r.noHeader then some .noHeader else none
  | .config => r.config.map Setting.config
  | .strict => if r.strict then some .strict else none
  | .logLevel => r.logLevel.map Setting.logLevel

/-- The settings, one for each option that is not left out. -/
def settings (r : Request) : List Setting :=
  Opt.all.filterMap r.setting?

/-- The arguments that a request means, together with some paths. -/
def arguments (r : Request) (paths : List String) : Arguments where
  paths := paths
  output := .text (r.output.getD "tags")
  format := r.format
  noSort := r.noSort
  noHeader := r.noHeader
  config := r.config.map Argument.text
  strict := r.strict
  logLevel := some (r.logLevel.getD .warning)

/-- A request that a command line can express. -/
structure IsPlain (r : Request) : Prop where
  output : r.output ≠ some dividerText
  config : r.config ≠ some dividerText
  format : ∀ f, r.format = some f → f ∈ Format.all

variable {r : Request} {o : Opt} {s t : Setting}

theorem opt_of_setting?
    (h : r.setting? o = some s) :
    s.opt = o := by
  cases o with
  | help =>
      cases h
  | output | format | config | logLevel =>
      obtain ⟨value, -, rfl⟩ := Option.map_eq_some_iff.1 h
      rfl
  | noSort | noHeader | strict =>
      obtain ⟨-, ⟨⟩⟩ := Option.ite_none_right_eq_some.1 h
      rfl

theorem isPlain_of_setting?
    (hr : r.IsPlain)
    (h : r.setting? o = some s) :
    s.IsPlain := by
  cases o with
  | help =>
      cases h
  | output =>
      obtain ⟨text, htext, rfl⟩ := Option.map_eq_some_iff.1 h
      rintro rfl
      exact hr.output htext
  | config =>
      obtain ⟨text, htext, rfl⟩ := Option.map_eq_some_iff.1 h
      rintro rfl
      exact hr.config htext
  | format =>
      obtain ⟨f, hf, rfl⟩ := Option.map_eq_some_iff.1 h
      exact hr.format f hf
  | logLevel =>
      obtain ⟨level, -, rfl⟩ := Option.map_eq_some_iff.1 h
      trivial
  | noSort | noHeader | strict =>
      obtain ⟨-, ⟨⟩⟩ := Option.ite_none_right_eq_some.1 h
      trivial

theorem eq_of_opt_eq
    (hs : s ∈ r.settings)
    (ht : t ∈ r.settings)
    (hopt : s.opt = t.opt) :
    s = t := by
  obtain ⟨o, -, ho⟩ := List.mem_filterMap.1 hs
  obtain ⟨o', -, ho'⟩ := List.mem_filterMap.1 ht
  rw [opt_of_setting? ho, opt_of_setting? ho'] at hopt
  rw [hopt, ho'] at ho
  exact (Option.some.inj ho).symm

theorem foldl_make_settings
    (r : Request)
    (paths : List String) :
    { r.settings.foldl Setting.make {} with paths } = r.arguments paths := by
  obtain ⟨output, config, format, logLevel, noSort, noHeader, strict⟩ := r
  cases output <;> cases config <;> cases format <;> cases logLevel <;>
    cases noSort <;> cases noHeader <;> cases strict <;> rfl

end Request

/-- A plain request is read back from its canonical command line, in whatever order its
settings are written and whatever the paths are: each option has the value that was asked
for, or its default if it was left out. -/
theorem parse_canonical_request
    (r : Request)
    (hr : r.IsPlain)
    (settings : List Setting)
    (hsettings : settings.Perm r.settings)
    (paths : List String)
    (hpaths : paths ≠ []) :
    parse (settings.map Setting.text ++ dividerText :: paths) = .ok (r.arguments paths) := by
  have hplain : ∀ s ∈ settings, s.IsPlain := by
    intro s hs
    obtain ⟨o, -, ho⟩ := List.mem_filterMap.1 (hsettings.mem_iff.1 hs)
    exact Request.isPlain_of_setting? hr ho
  have honce : ∀ s ∈ settings, ∀ t ∈ settings, s.opt = t.opt → s = t := by
    intro s hs t ht hopt
    exact Request.eq_of_opt_eq (hsettings.mem_iff.1 hs) (hsettings.mem_iff.1 ht) hopt
  rw [parse_settings hplain hpaths, Setting.foldl_make_of_perm hsettings honce,
    Request.foldl_make_settings]

namespace Sample

/-- A request whose values look like options. -/
def request : Request where
  output := some "--config=a b"
  config := some ""
  format := some .jsonl
  noSort := true

theorem isPlain_request :
    request.IsPlain where
  output := by decide
  config := by decide
  format := by
    intro f hf
    cases hf
    decide

/-- Its settings, the last one first. -/
def settings : List Setting :=
  [.config "", .noSort, .format .jsonl, .output "--config=a b"]

end Sample

theorem parse_canonical_request_sample :
    Sample.request.IsPlain ∧ Sample.settings.Perm Sample.request.settings ∧
      parse ["--config=", "--no-sort", "--format=jsonl", "--output=--config=a b", "--", "--",
          "-h", ""] =
        .ok
          { paths := ["--", "-h", ""]
            output := .text "--config=a b"
            format := some .jsonl
            noSort := true
            config := some (.text "")
            logLevel := some .warning } := by
  have hsettings : Sample.settings.Perm Sample.request.settings := by decide
  exact ⟨Sample.isPlain_request, hsettings,
    parse_canonical_request Sample.request Sample.isPlain_request Sample.settings hsettings
      ["--", "-h", ""] (List.cons_ne_nil _ _)⟩

end Requests

end CommandLine
end HaskellTags
