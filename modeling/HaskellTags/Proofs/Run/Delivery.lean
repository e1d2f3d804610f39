import HaskellTags.Proofs.Files.Writing
import HaskellTags.Run.Output

/-!
# Delivering lines

Lines are delivered as one text, each with its end: printed, or written into a file.  Where
the writing ends well, the output has received this text and nothing else has changed but
directories on the way to the file (`delivered_of_writeLines`).

Lines that are made while they are written are delivered as far as they can be made.  If all
can be made the writing is that of finished lines; otherwise it fails at the first that cannot,
and the output has received the lines before it (`writeMade_of_fault`).
-/

namespace HaskellTags
namespace Run

open Text

section Delivering

/-- A text was delivered at a path: printed, or written into a file, and nothing
else has changed but that directories were made on the way to the file. -/
def Delivered (before after : Files.Entry) (printed path text : String) : Prop :=
  if path = standardOutput then after = before ∧ printed = text
  else
    printed = "" ∧ after.names = before.names ∧
      Files.Written before.root after.root (Files.namesOf before path) (octetsOf text) ∧
      Files.read after path = .ok (octetsOf text)

/-- The octets that an output at a path holds after the writing. -/
def Output.received (out : Output) (path : String) : Except Files.Error Octets :=
  if path = standardOutput then .ok (octetsOf out.printed) else Files.read out.files path

variable {workingDirectory path : String} {files : Files.Entry} {lines : List String}
variable {count : Nat}

theorem delivered_of_writeLines
    (hok : (writeLines workingDirectory files path lines).outcome = .ok count) :
    Delivered files (writeLines workingDirectory files path lines).files
      (writeLines workingDirectory files path lines).printed path (TagsFile.text lines) := by
  unfold Delivered
  by_cases hpath : path = standardOutput
  · simp [writeLines, hpath]
  · generalize hchanged :
      Files.write workingDirectory files path (octetsOf (TagsFile.text lines)) = changed
    simp only [writeLines, if_neg hpath, hchanged] at hok ⊢
    cases houtcome : changed.outcome with
    | error e =>
        rw [houtcome] at hok
        cases hok
    | ok _ =>
        exact ⟨rfl, Files.written_of_write hchanged houtcome⟩

theorem received_of_writeLines
    (hok : (writeLines workingDirectory files path lines).outcome = .ok count) :
    (writeLines workingDirectory files path lines).received path =
      .ok (octetsOf (TagsFile.text lines)) := by
  have hdelivered := delivered_of_writeLines hok
  unfold Delivered at hdelivered
  unfold Output.received
  by_cases hpath : path = standardOutput
  · rw [if_pos hpath] at hdelivered ⊢
    rw [hdelivered.2]
  · rw [if_neg hpath] at hdelivered ⊢
    exact hdelivered.2.2.2

theorem writeLines_standardOutput
    (workingDirectory : String)
    (files : Files.Entry)
    (lines : List String) :
    writeLines workingDirectory files standardOutput lines =
      ⟨files, TagsFile.text lines, .ok lines.length, []⟩ := by
  rw [writeLines, if_pos rfl]

/-- Where some lines can be written, all lines can. -/
theorem outcome_writeLines_of_ok
    (hok : (writeLines workingDirectory files path lines).outcome = .ok count)
    (others : List String) :
    (writeLines workingDirectory files path others).outcome = .ok others.length := by
  by_cases hpath : path = standardOutput
  · simp [writeLines, hpath]
  · have hsame :=
      Files.outcome_write workingDirectory files path (octetsOf (TagsFile.text others))
        (octetsOf (TagsFile.text lines))
    simp only [writeLines, if_neg hpath] at hok ⊢
    rw [hsame]
    cases houtcome :
        (Files.write workingDirectory files path (octetsOf (TagsFile.text lines))).outcome with
    | error e =>
        rw [houtcome] at hok
        cases hok
    | ok _ =>
        rfl

/-- What was delivered is one text. -/
theorem Delivered.text_eq
    {before after : Files.Entry} {printed path s t : String}
    (hs : Delivered before after printed path s)
    (ht : Delivered before after printed path t) :
    s = t := by
  unfold Delivered at hs ht
  by_cases hpath : path = standardOutput
  · rw [if_pos hpath] at hs ht
    exact hs.2.symm.trans ht.2
  · rw [if_neg hpath] at hs ht
    have hread := hs.2.2.2.symm.trans ht.2.2.2
    exact octetsOf_injective (Except.ok.inj hread)

end Delivering

section Making

theorem upToFault_map_ok
    {ε α : Type}
    (xs : List α) :
    upToFault (xs.map (Except.ok : α → Except ε α)) = (xs, none) := by
  induction xs with
  | nil =>
      rfl
  | cons x xs ih =>
      rw [List.map_cons, upToFault, ih]

theorem upToFault_append_error
    {ε α : Type}
    (xs : List α)
    (e : ε)
    (rest : List (Except ε α)) :
    upToFault (xs.map Except.ok ++ .error e :: rest) = (xs, some e) := by
  induction xs with
  | nil =>
      rfl
  | cons x xs ih =>
      rw [List.map_cons, List.cons_append, upToFault, ih]

variable (workingDirectory : String) (files : Files.Entry) (path : String)

/-- Lines that can all be made are written as finished lines are. -/
theorem writeMade_map_ok
    (lines : List String) :
    writeMade workingDirectory files path (lines.map .ok) =
      writeLines workingDirectory files path lines := by
  simp only [writeMade, upToFault_map_ok]

/-- Where a line cannot be made, the lines before it have been written and the writing
fails. -/
theorem writeMade_of_fault
    (lines : List String)
    (fault : Decimal.LimitFault)
    (rest : List (Except Decimal.LimitFault String)) :
    let out := writeMade workingDirectory files path (lines.map .ok ++ .error fault :: rest)
    let before := writeLines workingDirectory files path lines
    out.files = before.files ∧ out.printed = before.printed ∧
      (∀ count, out.outcome ≠ .ok count) ∧
      (∀ count, before.outcome = .ok count → out.outcome = .error (.limit fault)) := by
  intro out before
  have hout : out = before.cutShort fault := by
    simp only [out, before, writeMade, upToFault_append_error]
  rw [hout]
  unfold Output.cutShort
  cases houtcome : before.outcome with
  | error e =>
      refine ⟨rfl, rfl, ?_, ?_⟩
      · intro count hok
        cases houtcome.symm.trans hok
      · intro count hok
        cases hok
  | ok written =>
      refine ⟨rfl, rfl, ?_, fun _ _ => rfl⟩
      intro count hok
      cases hok

end Making

end Run
end HaskellTags
