import HaskellTags.Proofs.Json.RoundTrip
import HaskellTags.Proofs.Run.Delivery
import HaskellTags.Proofs.TagsFile.Reading
import Mathlib.Data.List.Forall2

/-!
# Tags as JSON lines

The JSON format loses nothing.  Every tag is one object on one line, whatever
its texts are: line feeds are escaped, and so are the quotes and backslashes
that could pass for the end of a text.  The object is read back by the reader of
JSON and its eight fields give the tag, where `null` tells a field that is
absent from one that is empty.

Integers have any number of digits, but there may be a limit on those that are
written and read.  Without a limit all tags are written.  With one, the writing
stops at the first tag whose line has too many digits, and the tags before it have
been written; what is written whole is read back under the same limit.
-/

namespace HaskellTags

@[simp]
theorem Value.text?_text
    (s : String) :
    (Value.text s).text? = some s := rfl

@[simp]
theorem Value.int?_int
    (n : Int) :
    (Value.int n).int? = some n := rfl

theorem Enumeration.toOption_member_text
    {α : Type}
    (e : Enumeration α)
    (word : String) :
    (e.member (.text word)).toOption = e.ofWord? word := by
  rw [member, Value.text?_text, Option.bind_some]
  cases e.ofWord? word <;> rfl

namespace Tag

section Decoding

/-- A reader of what may be absent. -/
def optional? {α : Type} (read : Value → Option α) : Value → Option (Option α)
  | .scalar .null => some none
  | v => (read v).map some

/-- The parent that a value shows. -/
def Parent.ofValue? (v : Value) : Option Parent := do
  let kind ← (Kind.enumeration.member (← v.get? "kind")).toOption
  let name ← (← v.get? "name").text?
  return ⟨kind, name⟩

/-- The tag that a value shows with its eight fields. -/
def ofValue? (v : Value) : Option Tag := do
  let name ← (← v.get? "name").text?
  let file ← (← v.get? "file").text?
  let pattern ← (← v.get? "pattern").text?
  let kind ← (Kind.enumeration.member (← v.get? "kind")).toOption
  let line ← (← v.get? "line").int?
  let parent ← optional? Parent.ofValue? (← v.get? "parent")
  let signature ← optional? Value.text? (← v.get? "signature")
  let access ← optional? (fun v => (Access.enumeration.member v).toOption) (← v.get? "access")
  return ⟨name, file, pattern, kind, line, parent, signature, access⟩

theorem member_kindName
    (k : Kind) :
    (Kind.enumeration.member (.text k.name)).toOption = some k := by
  rw [Enumeration.toOption_member_text]
  exact ofName?_name k

theorem member_accessName
    (a : Access) :
    (Access.enumeration.member (.text a.name)).toOption = some a := by
  rw [Enumeration.toOption_member_text]
  cases a <;> decide

theorem optional?_parent
    (p : Option Parent) :
    optional? Parent.ofValue? (match p with
      | some p => p.toValue
      | none => .null) = some p := by
  cases p with
  | none =>
      rfl
  | some p =>
      have hkind : p.toValue.get? "kind" = some (.text p.kind.name) := rfl
      have hname : p.toValue.get? "name" = some (.text p.name) := rfl
      have hread : Parent.ofValue? p.toValue = some p := by
        simp [Parent.ofValue?, hkind, hname, member_kindName]
      simp only [optional?, Parent.toValue] at hread ⊢
      rw [hread]
      rfl

theorem optional?_signature
    (s : Option String) :
    optional? Value.text? (optionalText s) = some s := by
  cases s <;> rfl

theorem optional?_access
    (a : Option Access) :
    optional? (fun v => (Access.enumeration.member v).toOption)
      (optionalText (a.map Access.name)) = some a := by
  cases a with
  | none =>
      rfl
  | some a =>
      exact congrArg (Option.map some) (member_accessName a)

theorem ofValue?_toValue
    (t : Tag) :
    ofValue? t.toValue = some t := by
  have hname : t.toValue.get? "name" = some (.text t.name) := rfl
  have hfile : t.toValue.get? "file" = some (.text t.file) := rfl
  have hpattern : t.toValue.get? "pattern" = some (.text t.pattern) := rfl
  have hkind : t.toValue.get? "kind" = some (.text t.kind.name) := rfl
  have hline : t.toValue.get? "line" = some (.int t.line) := rfl
  have hparent :
      t.toValue.get? "parent" =
        some (match t.parent with
          | some p => p.toValue
          | none => .null) := rfl
  have hsignature : t.toValue.get? "signature" = some (optionalText t.signature) := rfl
  have haccess :
      t.toValue.get? "access" = some (optionalText (t.access.map Access.name)) := rfl
  simp [ofValue?, hname, hfile, hpattern, hkind, hline, hparent, hsignature, haccess,
    member_kindName, optional?_parent, optional?_signature, optional?_access]

end Decoding

section Lines

open Json

theorem readable_optionalText
    (limit : Option Nat)
    (room : Nat)
    (s : Option String) :
    Readable limit room (optionalText s) := by
  cases s with
  | none =>
      exact .null
  | some s =>
      exact .text s

theorem readable_parent
    (limit : Option Nat)
    (room : Nat)
    (p : Option Parent) :
    Readable limit (room + 1) (match p with
      | some p => p.toValue
      | none => .null) := by
  cases p with
  | none =>
      exact .null
  | some p =>
      have hkeys : ["kind", "name"].Nodup := by decide
      refine .map [("kind", .text p.kind.name), ("name", .text p.name)] hkeys ?_
      simp only [List.forall_mem_cons]
      exact ⟨.text _, .text _, nofun⟩

/-- A tag is an object within an object at most, and its only number is its line. -/
theorem readable_toValue
    {limit : Option Nat} {t : Tag}
    (hline : Decimal.isWithin limit t.line = true)
    (room : Nat) :
    Readable limit (room + 2) t.toValue := by
  have hkeys :
      ["name", "file", "pattern", "kind", "line", "parent", "signature",
        "access"].Nodup := by
    decide
  refine .map
    [("name", .text t.name), ("file", .text t.file), ("pattern", .text t.pattern),
      ("kind", .text t.kind.name), ("line", .int t.line),
      ("parent", match t.parent with
        | some p => p.toValue
        | none => .null),
      ("signature", optionalText t.signature),
      ("access", optionalText (t.access.map Access.name))] hkeys ?_
  simp only [List.forall_mem_cons]
  exact ⟨.text _, .text _, .text _, .text _, .int _ hline, readable_parent limit room _,
    readable_optionalText limit _ _, readable_optionalText limit _ _, nofun⟩

theorem fits_optionalText
    (limit : Option Nat)
    (s : Option String) :
    fits limit (optionalText s) = true := by
  cases s <;> rfl

theorem fits_toValue
    (limit : Option Nat)
    (t : Tag) :
    fits limit t.toValue = Decimal.isWithin limit t.line := by
  have htext : ∀ s, fits limit (.text s) = true := fun _ => rfl
  have hkey : ∀ s, fitsScalar limit (.text s) = true := fun _ => rfl
  have hline : fits limit (.int t.line) = Decimal.isWithin limit t.line := rfl
  have hnull : fits limit .null = true := rfl
  unfold toValue
  cases t.parent with
  | none =>
      simp [fits, fitsEntries, htext, hkey, hline, hnull, fits_optionalText]
  | some p =>
      simp [Parent.toValue, fits, fitsEntries, htext, hkey, hline, fits_optionalText]

end Lines

end Tag

namespace TagsFile

open Tag Text

section Records

/-- A line is one object, from which the tag is read back within a limit on digits. -/
def Shows (limit : Option Nat) (line : String) (t : Tag) : Prop :=
  ∃ entries : Entries,
    Json.parseWithin limit line = .ok (.map entries) ∧ ofValue? (.map entries) = some t

theorem shows_render
    {limit : Option Nat} {t : Tag}
    (hline : Decimal.isWithin limit t.line = true) :
    Shows limit (Json.render t.toValue) t :=
  ⟨_, Json.parseWithin_render (readable_toValue hline 983), ofValue?_toValue t⟩

theorem lineFeed_not_mem_jsonLines
    (tags : List Tag) :
    ∀ line ∈ jsonLines tags, '\n' ∉ line.toList := by
  intro line hline
  obtain ⟨t, -, rfl⟩ := List.mem_map.1 hline
  exact Json.lineFeed_not_mem_render (readable_toValue (Decimal.isWithin_none t.line) 0)

theorem eq_of_shows
    {limit : Option Nat} {line : String} {s t : Tag}
    (hs : Shows limit line s)
    (ht : Shows limit line t) :
    s = t := by
  obtain ⟨entries, hparse, hs⟩ := hs
  obtain ⟨others, hparse', ht⟩ := ht
  rw [hparse, Except.ok.injEq] at hparse'
  rw [← hparse', hs, Option.some.injEq] at ht
  exact ht

theorem jsonLines_injective :
    Function.Injective jsonLines := by
  refine List.map_injective_iff.2 ?_
  intro s t h
  have hline : Json.render s.toValue = Json.render t.toValue := h
  apply eq_of_shows (shows_render (Decimal.isWithin_none s.line))
  rw [hline]
  exact shows_render (Decimal.isWithin_none t.line)

theorem eq_of_text_jsonLines_eq
    {tags others : List Tag}
    (h : text (jsonLines tags) = text (jsonLines others)) :
    tags = others := by
  have hsplit := splitText_text (lineFeed_not_mem_jsonLines tags)
  rw [h, splitText_text (lineFeed_not_mem_jsonLines others)] at hsplit
  exact jsonLines_injective (List.append_cancel_right hsplit).symm

end Records

section Writing

variable {limit : Option Nat} {tags : List Tag}

theorem jsonRecords_eq_map_ok
    (hlines : ∀ t ∈ tags, Decimal.isWithin limit t.line = true) :
    jsonRecords limit tags = (jsonLines tags).map .ok := by
  rw [jsonRecords, jsonLines, List.map_map]
  refine List.map_congr_left ?_
  intro t ht
  rw [Json.writeWithin, fits_toValue, if_pos (hlines t ht), Function.comp_apply]

theorem jsonRecords_append_cons
    {before after : List Tag} {t : Tag}
    (hlines : ∀ s ∈ before, Decimal.isWithin limit s.line = true)
    (ht : ¬ Decimal.isWithin limit t.line = true) :
    jsonRecords limit (before ++ t :: after) =
      (jsonLines before).map .ok ++ .error .writing :: jsonRecords limit after := by
  have hbefore := jsonRecords_eq_map_ok hlines
  unfold jsonRecords at hbefore ⊢
  rw [List.map_append, hbefore, List.map_cons, Json.writeWithin, fits_toValue, if_neg ht]

/-- Among tags that are not all within the limit there is a first one beyond it. -/
theorem exists_first_beyond
    (hbeyond : ¬ ∀ t ∈ tags, Decimal.isWithin limit t.line = true) :
    ∃ before t after, tags = before ++ t :: after ∧
      (∀ s ∈ before, Decimal.isWithin limit s.line = true) ∧
      ¬ Decimal.isWithin limit t.line = true := by
  have hsome : (tags.find? fun t => !Decimal.isWithin limit t.line).isSome := by
    simpa using hbeyond
  obtain ⟨t, hfind⟩ := Option.isSome_iff_exists.1 hsome
  obtain ⟨ht, before, after, rfl, hbefore⟩ := List.find?_eq_some_iff_append.1 hfind
  exact ⟨before, t, after, rfl, by simpa using hbefore, by simpa using ht⟩

variable {workingDirectory path : String} {files : Files.Entry} {count : Nat}

/-- Tags within the limit are written as their lines are. -/
theorem writeJson_eq_writeLines
    (workingDirectory : String)
    (files : Files.Entry)
    (path : String)
    (hlines : ∀ t ∈ tags, Decimal.isWithin limit t.line = true) :
    Run.writeJson limit workingDirectory files path tags =
      Run.writeLines workingDirectory files path (jsonLines tags) := by
  rw [Run.writeJson, jsonRecords_eq_map_ok hlines, Run.writeMade_map_ok]

/-- A tag beyond the limit cuts the writing short, and leaves what stands before it. -/
theorem writeJson_of_beyond
    (workingDirectory : String)
    (files : Files.Entry)
    (path : String)
    {before : List Tag} {t : Tag}
    (hlines : ∀ s ∈ before, Decimal.isWithin limit s.line = true)
    (ht : ¬ Decimal.isWithin limit t.line = true)
    (after : List Tag) :
    let out := Run.writeJson limit workingDirectory files path (before ++ t :: after)
    let cut := Run.writeJson limit workingDirectory files path before
    out.files = cut.files ∧ out.printed = cut.printed ∧
      (∀ count, out.outcome ≠ .ok count) ∧
      (∀ count, cut.outcome = .ok count → out.outcome = .error (.limit .writing)) := by
  intro out cut
  have hcut : cut = Run.writeLines workingDirectory files path (jsonLines before) :=
    writeJson_eq_writeLines workingDirectory files path hlines
  have hout :
      out =
        Run.writeMade workingDirectory files path
          ((jsonLines before).map .ok ++ .error .writing :: jsonRecords limit after) :=
    congrArg (Run.writeMade workingDirectory files path) (jsonRecords_append_cons hlines ht)
  rw [hout, hcut]
  exact Run.writeMade_of_fault workingDirectory files path _ _ _

/-- The writing ends well only if all tags are within the limit. -/
theorem isWithin_of_writeJson
    (hok : (Run.writeJson limit workingDirectory files path tags).outcome = .ok count) :
    ∀ t ∈ tags, Decimal.isWithin limit t.line = true := by
  by_contra hbeyond
  obtain ⟨before, t, after, rfl, hbefore, ht⟩ := exists_first_beyond hbeyond
  exact (writeJson_of_beyond workingDirectory files path hbefore ht after).2.2.1 count hok

namespace Sample

/-- A tag that differs from others in its signature and line. -/
def signed (signature : Option String) (line : Int) : Tag :=
  ⟨"f", "M.hs", "f :: \"T\"", .function, line, none, signature, none⟩

end Sample

end Writing

end TagsFile
end HaskellTags
