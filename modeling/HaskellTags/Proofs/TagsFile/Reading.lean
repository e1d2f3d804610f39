import HaskellTags.Proofs.Text.Digits
import HaskellTags.Proofs.Text.Rows
import HaskellTags.Run.Output
import HaskellTags.Tag.Letters

/-!
# Reading a tags file back

A line shows the pattern of its tag as it is, tabs included, and says nothing
of the optional fields that the tag does not have.  It can be read all the same.
The name and the file are the first two fields.  The others are taken from the
end of the line, where the word before the colon tells which optional field
stands there, and all that is left in the middle belongs to the pattern.

`readLine_render` reads one line back and `read_text` a whole file, so that what
is written determines the tags: `written_determines_tags`.
-/

namespace HaskellTags
namespace Tag

section Fields

/-- A text that stays within one field of a line. -/
def WithinField (s : String) : Prop :=
  '\t' ∉ s.toList ∧ '\n' ∉ s.toList

instance (s : String) : Decidable (WithinField s) :=
  inferInstanceAs (Decidable (_ ∧ _))

/-- Every text of a tag stays within its field, and the pattern within its
line; the pattern may go over several fields. -/
structure Separable (t : Tag) : Prop where
  name : WithinField t.name
  file : WithinField t.file
  pattern : '\n' ∉ t.pattern.toList
  parent : ∀ p ∈ t.parent, WithinField p.name
  signature : ∀ s ∈ t.signature, WithinField s

instance (t : Tag) : Decidable t.Separable :=
  decidable_of_iff
    (WithinField t.name ∧ WithinField t.file ∧ '\n' ∉ t.pattern.toList ∧
      (∀ p ∈ t.parent, WithinField p.name) ∧ ∀ s ∈ t.signature, WithinField s)
    ⟨fun ⟨name, file, pattern, parent, signature⟩ =>
        ⟨name, file, pattern, parent, signature⟩,
      fun h => ⟨h.name, h.file, h.pattern, h.parent, h.signature⟩⟩

/-- The field of a pattern: a search for a whole line. -/
def locatorText (pattern : String) : String :=
  "/^" ++ pattern ++ "$/;\""

/-- The field of a line number. -/
def lineText (line : Int) : String :=
  "line:" ++ toString line

/-- The field of a parent, without its tab. -/
def parentText (p : Parent) : String :=
  p.kind.name ++ ":" ++ p.name

/-- The field of a signature, without its tab. -/
def signatureText (s : String) : String :=
  "signature:(" ++ s ++ ")"

/-- The field of an access grade, without its tab. -/
def accessText (a : Access) : String :=
  "access:" ++ a.name

/-- The fields that a tag may lack. -/
def optionalTexts (t : Tag) : List String :=
  (t.parent.map parentText).toList ++
    ((t.signature.map signatureText).toList ++ (t.access.map accessText).toList)

/-- Fields, each after a tab. -/
def tabbed (fields : List String) : String :=
  String.join (fields.map ("\t" ++ ·))

theorem tabbed_singleton
    (field : String) :
    tabbed [field] = "\t" ++ field := by
  simp [tabbed]

theorem tabbed_cons
    (field : String)
    (fields : List String) :
    tabbed (field :: fields) = "\t" ++ field ++ tabbed fields := by
  simp [tabbed]

theorem tabbed_append
    (xs ys : List String) :
    tabbed (xs ++ ys) = tabbed xs ++ tabbed ys := by
  simp [tabbed]

theorem parentField_eq_tabbed
    (p : Option Parent) :
    parentField p = tabbed (p.map parentText).toList := by
  cases p with
  | none =>
      rfl
  | some p =>
      simp only [Option.map_some, Option.toList_some, tabbed_singleton,
        parentField, parentText, String.append_assoc]

theorem signatureField_eq_tabbed
    (s : Option String) :
    signatureField s = tabbed (s.map signatureText).toList := by
  cases s with
  | none =>
      rfl
  | some s =>
      have hword : "\tsignature:(" = "\t" ++ "signature:(" := rfl
      simp only [Option.map_some, Option.toList_some, tabbed_singleton,
        signatureField, signatureText, hword, String.append_assoc]

theorem accessField_eq_tabbed
    (a : Option Access) :
    accessField a = tabbed (a.map accessText).toList := by
  cases a with
  | none =>
      rfl
  | some a =>
      have hword : "\taccess:" = "\t" ++ "access:" := rfl
      simp only [Option.map_some, Option.toList_some, tabbed_singleton,
        accessField, accessText, hword, String.append_assoc]

/-- A line is its name and, each after a tab, its other fields. -/
theorem render_eq_tabbed
    (t : Tag) :
    render t =
      t.name ++
        tabbed (t.file :: locatorText t.pattern :: String.singleton t.kind.letter ::
          lineText t.line :: optionalTexts t) := by
  have hopening : "\t/^" = "\t" ++ "/^" := rfl
  have hclosing : "$/;\"\t" = "$/;\"" ++ "\t" := rfl
  have hline : "\tline:" = "\t" ++ "line:" := rfl
  simp only [render, parentField_eq_tabbed, signatureField_eq_tabbed,
    accessField_eq_tabbed, tabbed_cons, tabbed_append, optionalTexts, locatorText,
    lineText, hopening, hclosing, hline, String.append_assoc]

end Fields

section Splitting

open Text

/-- Fields after a text are split one by one. -/
theorem splitText_append_tabbed
    (s : String)
    (fields : List String) :
    splitText (· == '\t') (s ++ tabbed fields) =
      splitText (· == '\t') s ++ fields.flatMap (splitText (· == '\t')) := by
  induction fields generalizing s with
  | nil =>
      simp [tabbed]
  | cons field fields ih =>
      have htab : "\t" = String.singleton '\t' := rfl
      rw [tabbed_cons, String.append_assoc, htab, splitText_append_separator, ih,
        List.flatMap_cons]

theorem intercalate_splitText
    (s : String) :
    "\t".intercalate (splitText (· == '\t') s) = s := by
  apply String.toList_injective
  have htab : "\t".toList = ['\t'] := rfl
  rw [String.toList_intercalate, htab, splitText, List.map_map,
    splitWhen_eq_splitOnP, ← List.splitOn_eq_splitOnP]
  simp only [Function.comp_def, String.toList_ofList, List.map_id']
  exact List.intercalate_splitOn '\t'

end Splitting

section Readers

/-- What stands before a word at the end of a text. -/
def beforeWord (word text : String) : Option String :=
  (text.toList.dropSuffix? word.toList).map String.ofList

theorem beforeWord_append
    (word rest : String) :
    beforeWord word (rest ++ word) = some rest := by
  have hdrop :
      (rest ++ word).toList.dropSuffix? word.toList = some rest.toList :=
    List.dropSuffix?_eq_some_iff.2
      ⟨word.toList, String.toList_append, BEq.rfl⟩
  rw [beforeWord, hdrop, Option.map_some, String.ofList_toList]

/-- A reader of fields that start with a word. -/
def readAfter {α : Type} (word : String) (readRest : String → Option α)
    (field : String) : Option α :=
  (field.toList.dropPrefix? word.toList).bind fun rest => readRest (String.ofList rest)

theorem readAfter_append
    {α : Type}
    (word : String)
    (readRest : String → Option α)
    (rest : String) :
    readAfter word readRest (word ++ rest) = readRest rest := by
  have hdrop :
      (word ++ rest).toList.dropPrefix? word.toList = some rest.toList :=
    List.dropPrefix?_eq_some_iff.2
      ⟨word.toList, String.toList_append, BEq.rfl⟩
  rw [readAfter, hdrop, Option.bind_some, String.ofList_toList]

/-- A field that starts with another letter does not start with the word. -/
theorem readAfter_eq_none
    {α : Type} {word field : String} {c d : Char}
    (readRest : String → Option α)
    (hword : word.toList.head? = some c)
    (hfield : field.toList.head? = some d)
    (hne : d ≠ c) :
    readAfter word readRest field = none := by
  have hdrop : field.toList.dropPrefix? word.toList = none := by
    rw [Option.eq_none_iff_forall_ne_some]
    intro rest hrest
    obtain ⟨start, hstart, hbeq⟩ := List.dropPrefix?_eq_some_iff.1 hrest
    rw [eq_of_beq hbeq] at hstart
    apply hne
    rw [hstart, List.head?_append, hword, Option.some_or] at hfield
    exact (Option.some.inj hfield).symm
  rw [readAfter, hdrop, Option.bind_none]

theorem head?_append
    {word : String} {c : Char}
    (hword : word.toList.head? = some c)
    (rest : String) :
    (word ++ rest).toList.head? = some c := by
  simp [hword]

def readLocator : String → Option String :=
  readAfter "/^" (beforeWord "$/;\"")

def readKind (field : String) : Option Kind :=
  Kind.all.find? fun kind => String.singleton kind.letter = field

/-- The number that digits write, after a sign or without one. -/
def numberOf (digits : String) : Int :=
  match digits.toList with
  | '-' :: rest => -(Nat.ofDigitChars 10 rest 0 : Int)
  | rest => (Nat.ofDigitChars 10 rest 0 : Int)

def readNumber : String → Option Int :=
  readAfter "line:" fun digits => some (numberOf digits)

/-- The kind of a parent goes up to the first colon; its name may hold others. -/
def readParent (field : String) : Option Parent :=
  match field.toList.dropWhile (· != ':') with
  | [] => none
  | _ :: name =>
    (Kind.ofName? (String.ofList (field.toList.takeWhile (· != ':')))).map
      fun kind => ⟨kind, String.ofList name⟩

def readSignature : String → Option String :=
  readAfter "signature:(" (beforeWord ")")

def readAccess : String → Option Access :=
  readAfter "access:" Access.ofName?

theorem readLocator_locatorText
    (pattern : String) :
    readLocator (locatorText pattern) = some pattern := by
  rw [readLocator, locatorText, String.append_assoc, readAfter_append]
  exact beforeWord_append _ pattern

theorem readKind_letter
    (kind : Kind) :
    readKind (String.singleton kind.letter) = some kind := by
  cases kind <;> decide

theorem numberOf_toString
    (n : Int) :
    numberOf (toString n) = n := by
  have hvalue : ∀ k : Nat, Nat.ofDigitChars 10 (Nat.toDigits 10 k) 0 = k :=
    fun k => Nat.ofDigitChars_toDigits (by decide) (by decide)
  rw [numberOf, Text.toList_toString_int]
  by_cases hsign : 0 ≤ n
  · rw [if_pos hsign]
    split
    · next rest hrest =>
      -- A number without a sign does not start with one.
      have hdigit : '-'.isDigit = true :=
        Text.isDigit_of_mem_toDigits (hrest ▸ List.mem_cons_self)
      exact absurd hdigit (by decide)
    · rw [hvalue]
      omega
  · rw [if_neg hsign]
    simp only [hvalue]
    omega

theorem readNumber_lineText
    (line : Int) :
    readNumber (lineText line) = some line := by
  rw [readNumber, lineText, readAfter_append, numberOf_toString]

theorem readSignature_signatureText
    (s : String) :
    readSignature (signatureText s) = some s := by
  rw [readSignature, signatureText, String.append_assoc, readAfter_append]
  exact beforeWord_append _ s

theorem readAccess_accessText
    (a : Access) :
    readAccess (accessText a) = some a := by
  rw [readAccess, accessText, readAfter_append]
  cases a <;> decide

theorem colon_not_mem_name
    (kind : Kind) :
    ':' ∉ kind.name.toList := by
  cases kind <;> decide

theorem ofName?_name
    (kind : Kind) :
    Kind.ofName? kind.name = some kind := by
  cases kind <;> decide

/-- A word without a colon, cut from what follows its colon. -/
theorem readParent_append
    {word : String}
    (hword : ':' ∉ word.toList)
    (rest : String) :
    readParent (word ++ ":" ++ rest) =
      (Kind.ofName? word).map fun kind => ⟨kind, rest⟩ := by
  have hfield :
      (word ++ ":" ++ rest).toList = word.toList ++ ':' :: rest.toList := by
    simp
  have hfree : ∀ c ∈ word.toList, (c != ':') = true := by
    intro c hc
    exact bne_iff_ne.2 (ne_of_mem_of_not_mem hc hword)
  rw [readParent, hfield, List.dropWhile_append_of_pos hfree,
    List.takeWhile_append_of_pos hfree]
  simp

theorem readParent_parentText
    (p : Parent) :
    readParent (parentText p) = some p := by
  rw [parentText, readParent_append (colon_not_mem_name p.kind), ofName?_name]
  rfl

/-- A line number is not taken for a parent. -/
theorem readParent_lineText
    (line : Int) :
    readParent (lineText line) = none := by
  have hword : "line:" = "line" ++ ":" := rfl
  have hkind : Kind.ofName? "line" = none := by decide
  rw [lineText, hword, readParent_append (by decide), hkind]
  rfl

theorem head?_lineText
    (line : Int) :
    (lineText line).toList.head? = some 'l' :=
  head?_append rfl (toString line)

theorem head?_parentText
    (p : Parent) :
    (parentText p).toList.head? = some p.kind.letter :=
  head?_append (head?_append (letter_eq_head p.kind) ":") p.name

theorem head?_signatureText
    (s : String) :
    (signatureText s).toList.head? = some 's' :=
  head?_append (head?_append rfl s) ")"

theorem letter_ne
    (kind : Kind) :
    kind.letter ≠ 'a' ∧ kind.letter ≠ 's' := by
  cases kind <;> decide

end Readers

section Lines

variable {α : Type}

/-- The last field, if a reader takes it, and the fields before it. -/
def lastField (readField : String → Option α) (fields : List String) :
    Option α × List String :=
  match fields.getLast?.bind readField with
  | some a => (some a, fields.dropLast)
  | none => (none, fields)

theorem lastField_append_singleton
    {readField : String → Option α} {field : String} {a : α}
    (hread : readField field = some a)
    (fields : List String) :
    lastField readField (fields ++ [field]) = (some a, fields) := by
  simp [lastField, hread]

/-- An optional field is taken exactly if it is there, provided that the field
before it would not be taken in its place. -/
theorem lastField_append_toList
    {readField : String → Option α} {write : α → String} {fields : List String}
    (hread : ∀ a, readField (write a) = some a)
    (hlast : ∀ field ∈ fields.getLast?, readField field = none)
    (value : Option α) :
    lastField readField (fields ++ (value.map write).toList) = (value, fields) := by
  cases value with
  | none =>
      have hnone : fields.getLast?.bind readField = none :=
        Option.bind_eq_none_iff.2 hlast
      simp [lastField, hnone]
  | some a =>
      exact lastField_append_singleton (hread a) fields

theorem forall_getLast?_append_toList
    {P : String → Prop} {write : α → String} {fields : List String} {value : Option α}
    (hlast : ∀ field ∈ fields.getLast?, P field)
    (hvalue : ∀ a, P (write a)) :
    ∀ field ∈ (fields ++ (value.map write).toList).getLast?, P field := by
  cases value with
  | none =>
      simpa using hlast
  | some a =>
      simpa using hvalue a

/-- The tag of a line. -/
def readLine (line : String) : Option Tag :=
  match Text.splitText (· == '\t') line with
  | name :: file :: fields => do
    let (access, fields) := lastField readAccess fields
    let (signature, fields) := lastField readSignature fields
    let (parent, fields) := lastField readParent fields
    let (number, fields) := lastField readNumber fields
    let (kind, fields) := lastField readKind fields
    let pattern ← readLocator ("\t".intercalate fields)
    return ⟨name, file, pattern, ← kind, ← number, parent, signature, access⟩
  | _ => none

theorem withinField_append
    {s rest : String} :
    WithinField (s ++ rest) ↔ WithinField s ∧ WithinField rest := by
  simp only [WithinField, String.toList_append, List.mem_append, not_or]
  tauto

theorem withinField_toString_int
    (n : Int) :
    WithinField (toString n) :=
  ⟨Text.not_mem_toString_int (by decide) rfl n, Text.not_mem_toString_int (by decide) rfl n⟩

theorem withinField_lineText
    (line : Int) :
    WithinField (lineText line) :=
  withinField_append.2 ⟨by decide, withinField_toString_int line⟩

theorem withinField_letter
    (kind : Kind) :
    WithinField (String.singleton kind.letter) := by
  cases kind <;> decide

theorem Separable.withinField_of_mem_optionalTexts
    {t : Tag}
    (ht : t.Separable) :
    ∀ field ∈ optionalTexts t, WithinField field := by
  intro field hfield
  simp only [optionalTexts, List.mem_append, Option.mem_toList,
    Option.map_eq_some_iff] at hfield
  rcases hfield with ⟨p, hp, rfl⟩ | ⟨s, hs, rfl⟩ | ⟨a, -, rfl⟩
  · have hkind : WithinField p.kind.name := by
      cases p.kind <;> decide
    exact withinField_append.2
      ⟨withinField_append.2 ⟨hkind, by decide⟩, ht.parent p hp⟩
  · exact withinField_append.2
      ⟨withinField_append.2 ⟨by decide, ht.signature s hs⟩, by decide⟩
  · have hgrade : WithinField a.name := by
      cases a <;> decide
    exact withinField_append.2 ⟨by decide, hgrade⟩

theorem flatMap_splitText
    {fields : List String}
    (hfields : ∀ field ∈ fields, WithinField field) :
    fields.flatMap (Text.splitText (· == '\t')) = fields := by
  induction fields with
  | nil =>
      rfl
  | cons field fields ih =>
      obtain ⟨hfield, hrest⟩ := List.forall_mem_cons.1 hfields
      rw [List.flatMap_cons, Text.splitText_of_not_mem hfield.1, ih hrest]
      rfl

/-- The fields that every tag has, after its name and its file: the pieces of
the pattern, the kind and the line. -/
def requiredTexts (t : Tag) : List String :=
  Text.splitText (· == '\t') (locatorText t.pattern) ++
    [String.singleton t.kind.letter] ++ [lineText t.line]

theorem Separable.splitText_render
    {t : Tag}
    (ht : t.Separable) :
    Text.splitText (· == '\t') (render t) =
      t.name :: t.file :: (requiredTexts t ++ optionalTexts t) := by
  rw [render_eq_tabbed, splitText_append_tabbed, Text.splitText_of_not_mem ht.name.1]
  simp only [List.flatMap_cons, Text.splitText_of_not_mem ht.file.1,
    Text.splitText_of_not_mem (withinField_letter t.kind).1,
    Text.splitText_of_not_mem (withinField_lineText t.line).1,
    flatMap_splitText ht.withinField_of_mem_optionalTexts, requiredTexts,
    List.append_assoc, List.cons_append, List.nil_append]

theorem forall_getLast?_requiredTexts
    {P : String → Prop} {t : Tag}
    (hline : P (lineText t.line)) :
    ∀ field ∈ (requiredTexts t).getLast?, P field := by
  simpa [requiredTexts] using hline

theorem lastField_parent
    (t : Tag) :
    lastField readParent (requiredTexts t ++ (t.parent.map parentText).toList) =
      (t.parent, requiredTexts t) := by
  refine lastField_append_toList readParent_parentText ?_ t.parent
  exact forall_getLast?_requiredTexts (readParent_lineText t.line)

theorem lastField_signature
    (t : Tag) :
    lastField readSignature
        (requiredTexts t ++ (t.parent.map parentText).toList ++
          (t.signature.map signatureText).toList) =
      (t.signature, requiredTexts t ++ (t.parent.map parentText).toList) := by
  refine lastField_append_toList readSignature_signatureText ?_ t.signature
  apply forall_getLast?_append_toList
  · apply forall_getLast?_requiredTexts
    exact readAfter_eq_none _ rfl (head?_lineText t.line) (by decide)
  · intro p
    exact readAfter_eq_none _ rfl (head?_parentText p) (letter_ne p.kind).2

theorem lastField_access
    (t : Tag) :
    lastField readAccess
        (requiredTexts t ++ (t.parent.map parentText).toList ++
          (t.signature.map signatureText).toList ++
          (t.access.map accessText).toList) =
      (t.access,
        requiredTexts t ++ (t.parent.map parentText).toList ++
          (t.signature.map signatureText).toList) := by
  refine lastField_append_toList readAccess_accessText ?_ t.access
  apply forall_getLast?_append_toList
  · apply forall_getLast?_append_toList
    · apply forall_getLast?_requiredTexts
      exact readAfter_eq_none _ rfl (head?_lineText t.line) (by decide)
    · intro p
      exact readAfter_eq_none _ rfl (head?_parentText p) (letter_ne p.kind).1
  · intro s
    exact readAfter_eq_none _ rfl (head?_signatureText s) (by decide)

/-- The line of a tag is read back. -/
theorem readLine_render
    {t : Tag}
    (ht : t.Separable) :
    readLine (render t) = some t := by
  rw [readLine, ht.splitText_render, optionalTexts, ← List.append_assoc,
    ← List.append_assoc]
  simp only [lastField_access, lastField_signature, lastField_parent]
  simp only [requiredTexts, lastField_append_singleton (readNumber_lineText t.line),
    lastField_append_singleton (readKind_letter t.kind),
    intercalate_splitText, readLocator_locatorText]
  rfl

theorem lineFeed_not_mem_tabbed
    {fields : List String}
    (hfields : ∀ field ∈ fields, '\n' ∉ field.toList) :
    '\n' ∉ (tabbed fields).toList := by
  induction fields with
  | nil =>
      decide
  | cons field fields ih =>
      obtain ⟨hfield, hrest⟩ := List.forall_mem_cons.1 hfields
      have htab : '\n' ∉ "\t".toList := by decide
      rw [tabbed_cons]
      simp only [String.toList_append, List.mem_append, not_or]
      exact ⟨⟨htab, hfield⟩, ih hrest⟩

theorem Separable.lineFeed_not_mem_render
    {t : Tag}
    (ht : t.Separable) :
    '\n' ∉ (render t).toList := by
  have hlocator : '\n' ∉ (locatorText t.pattern).toList := by
    simpa [locatorText] using ht.pattern
  rw [render_eq_tabbed, String.toList_append, List.mem_append, not_or]
  refine ⟨ht.name.2, lineFeed_not_mem_tabbed ?_⟩
  simp only [List.forall_mem_cons]
  exact ⟨ht.file.2, hlocator, (withinField_letter t.kind).2,
    (withinField_lineText t.line).2,
    fun field hfield => (ht.withinField_of_mem_optionalTexts field hfield).2⟩

end Lines

end Tag

namespace TagsFile

open Tag Text

section Files

/-- The tags of a file.  Its last line is empty, since every line has its end. -/
def read (withHeader : Bool) (written : String) : Option (List Tag) :=
  let found := (splitText (· == '\n') written).dropLast
  let shown := if withHeader then found.drop (header false).length else found
  shown.mapM readLine

theorem splitText_text
    {written : List String}
    (hwritten : ∀ line ∈ written, '\n' ∉ line.toList) :
    splitText (· == '\n') (text written) = written ++ [""] := by
  induction written with
  | nil =>
      rfl
  | cons line written ih =>
      obtain ⟨hline, hrest⟩ := List.forall_mem_cons.1 hwritten
      have htext :
          text (line :: written) =
            line ++ (String.singleton '\n' ++ text written) := by
        simp [text, String.append_assoc]
      rw [htext, splitText_append_separator, Text.splitText_of_not_mem hline, ih hrest]
      rfl

/-- Among octets as among characters, lines end at line feeds and nowhere else. -/
theorem splitOn_octetsOf_text
    {written : List String}
    (hwritten : ∀ line ∈ written, '\n' ∉ line.toList) :
    (octetsOf (text written)).splitOn lineFeed = (written ++ [""]).map octetsOf := by
  rw [← rows_eq_splitOn]
  induction written with
  | nil =>
      rfl
  | cons line written ih =>
      obtain ⟨hline, hrest⟩ := List.forall_mem_cons.1 hwritten
      have htext :
          octetsOf (text (line :: written)) =
            octetsOf line ++ lineFeed :: octetsOf (text written) := by
        simp [text, octetsOf]
        rfl
      rw [htext, rows_append_lineFeed, rows_eq_singleton (lineFeed_not_mem_octetsOf hline),
        ih hrest]
      rfl

/-- The tags of a file in the order of its lines. -/
def arranged (sorted : Bool) (tags : List Tag) : List Tag :=
  if sorted then sort tags else tags

theorem arranged_perm
    (sorted : Bool)
    (tags : List Tag) :
    (arranged sorted tags).Perm tags := by
  cases sorted with
  | false =>
      exact .refl tags
  | true =>
      exact List.mergeSort_perm tags atMost

theorem lineFeed_not_mem_lines
    (sorted withHeader : Bool)
    {tags : List Tag}
    (htags : ∀ t ∈ tags, t.Separable) :
    ∀ line ∈ lines sorted withHeader tags, '\n' ∉ line.toList := by
  have hheader : ∀ sorted, ∀ line ∈ header sorted, '\n' ∉ line.toList := by decide
  intro line hline
  rw [lines, List.mem_append] at hline
  rcases hline with hline | hline
  · cases withHeader with
    | false =>
        cases hline
    | true =>
        exact hheader sorted line hline
  · obtain ⟨t, ht, rfl⟩ := List.mem_map.1 hline
    exact (htags t ((arranged_perm sorted tags).mem_iff.1 ht)).lineFeed_not_mem_render

theorem mapM_readLine
    {tags : List Tag}
    (htags : ∀ t ∈ tags, t.Separable) :
    (tags.map render).mapM readLine = some tags := by
  induction tags with
  | nil =>
      rfl
  | cons t tags ih =>
      obtain ⟨ht, hrest⟩ := List.forall_mem_cons.1 htags
      simp [readLine_render ht, ih hrest]

/-- A file of tags is read back. -/
theorem read_text
    (withHeader : Bool)
    {tags : List Tag}
    (htags : ∀ t ∈ tags, t.Separable) :
    read withHeader (text (lines false withHeader tags)) = some tags := by
  rw [read, splitText_text (lineFeed_not_mem_lines false withHeader htags),
    List.dropLast_concat]
  cases withHeader with
  | false =>
      exact mapM_readLine htags
  | true =>
      have hdrop :
          (lines false true tags).drop (header false).length = tags.map render :=
        List.drop_left
      rw [if_pos rfl, hdrop]
      exact mapM_readLine htags

theorem eq_of_text_eq
    (withHeader : Bool)
    {tags others : List Tag}
    (htags : ∀ t ∈ tags, t.Separable)
    (hothers : ∀ t ∈ others, t.Separable)
    (htext : text (lines false withHeader tags) = text (lines false withHeader others)) :
    tags = others := by
  have hread := read_text withHeader htags
  rw [htext, read_text withHeader hothers] at hread
  exact (Option.some.inj hread).symm

/-- What is written of some tags, be it printed or put into a file, can be read
back and belongs to no other tags. -/
theorem written_determines_tags
    (workingDirectory : String)
    (files : Files.Entry)
    (withHeader : Bool)
    {tags others : List Tag}
    (htags : ∀ t ∈ tags, t.Separable)
    (hothers : ∀ t ∈ others, t.Separable) :
    let printed := fun tags =>
      (Run.writeLines workingDirectory files Run.standardOutput
        (lines false withHeader tags)).printed
    let octets := fun tags => octetsOf (text (lines false withHeader tags))
    read withHeader (printed tags) = some tags ∧
      (printed tags = printed others ↔ tags = others) ∧
      (octets tags = octets others ↔ tags = others) := by
  intro printed octets
  have hprinted : ∀ tags, printed tags = text (lines false withHeader tags) := by
    intro tags
    simp [printed, Run.writeLines]
  refine ⟨?_, ?_, ?_⟩
  · rw [hprinted]
    exact read_text withHeader htags
  · constructor
    · intro h
      rw [hprinted, hprinted] at h
      exact eq_of_text_eq withHeader htags hothers h
    · exact congrArg printed
  · constructor
    · intro h
      exact eq_of_text_eq withHeader htags hothers (octetsOf_injective h)
    · exact congrArg octets

/-- Two tags, the first with a pattern that looks like the end of the second. -/
def alikeTags : List Tag :=
  [⟨":+", "A.hs", "x$/;\"\tc\tline:3\tdata::T\tsignature:()\taccess:public", .constructor,
      -7, some ⟨.data, ":T"⟩, none, none⟩,
    ⟨":+", "A.hs", "x", .constructor, 3, some ⟨.data, ":T"⟩, some "", some .isPublic⟩]

theorem written_determines_alikeTags :
    (∀ t ∈ alikeTags, t.Separable) ∧
      (∀ t ∈ alikeTags.reverse, t.Separable) ∧
      read true (text (lines false true alikeTags)) = some alikeTags ∧
      octetsOf (text (lines false true alikeTags)) ≠
        octetsOf (text (lines false true alikeTags.reverse)) := by
  have hseparable : ∀ t ∈ alikeTags, t.Separable := by decide
  have hreverse : ∀ t ∈ alikeTags.reverse, t.Separable := by decide
  have hwritten :=
    written_determines_tags "/work" (.directory []) true hseparable hreverse
  have hne : alikeTags ≠ alikeTags.reverse := by decide
  refine ⟨hseparable, hreverse, ?_, ?_⟩
  · exact hwritten.1
  · intro h
    exact hne (hwritten.2.2.1 h)

end Files

end TagsFile
end HaskellTags
