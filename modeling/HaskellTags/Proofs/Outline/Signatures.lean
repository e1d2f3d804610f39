import HaskellTags.Outline.OfTree
import HaskellTags.Proofs.Text.Words
import HaskellTags.Proofs.Tree.Nodes
import HaskellTags.Proofs.Tree.Regions

/-!
# The types of signatures

The type of a signature is the text of a region of the source without the comments in
it.  On one line it is the words between blanks and comments, with one space between
them, so that it forgets how the type was laid out.

A space stands for each comment, and a space ends whatever stands before it, also a
character of which octets are missing.  So the region may be decoded as a whole or
segment by segment.
-/

namespace HaskellTags
namespace Outline

open Text HaskellTags.Tree

section Regions

/-- The part of a source that holds a type. -/
structure TypeRegion where
  /-- The node whose comments are left out. -/
  host : Node
  start : Nat
  stop : Nat

/-- Where the type of a signature stands: in the node of its type, or behind the first
colons up to the end. -/
def typeRegion (n : Node) : TypeRegion :=
  match n.childByField "type" with
  | some type => ⟨type, type.label.startByte, type.label.endByte⟩
  | none => ⟨n, typeStart n, n.label.endByte⟩

namespace TypeRegion

/-- The outermost comments of a region's node. -/
def comments (r : TypeRegion) : List Node :=
  r.host.outermost Grammar.comments

/-- A region whose end is not before its start and whose comments stand one after
another. -/
structure Proper (r : TypeRegion) : Prop where
  start_le_stop : r.start ≤ r.stop
  inSequence : InSequence r.comments

/-- A region read offset by offset, with a mark for each comment in it. -/
def shown (source : Octets) (r : TypeRegion) : List (Option UInt8) :=
  markedRegion source r.comments r.start r.stop

/-- The texts between the comments of a region. -/
def texts (source : Octets) (r : TypeRegion) : List (List Char) :=
  (betweenMarks (r.shown source)).map decodeChars

end TypeRegion

theorem signatureType_text
    (src : Source)
    (n : Node) :
    (signatureType src n).text =
      (typeRegion n).host.regionText src.octets (typeRegion n).start (typeRegion n).stop := by
  unfold signatureType typeRegion
  cases n.childByField "type" <;> rfl

/-- A node that declares functions has the type of a signature. -/
theorem type_eq_of_declOf
    {src : Source} {n : Node} {span : Span} {names : List Name} {type : TypeText}
    (h : (declOf src n).1 = .signature span names type) :
    type = signatureType src n := by
  unfold declOf at h
  split_ifs at h
  · unfold synonymOf at h
    split at h <;> cases h
  · unfold dataOf at h
    split at h <;> cases h
  · unfold dataOf at h
    split at h <;> cases h
  · unfold signatureOf at h
    split at h
    · cases h
    · cases h
      rfl

end Regions

section Words

/-- Octets with a space between them are decoded one after another. -/
theorem decodeChars_intercalate_space
    {segments : List Octets}
    (hne : segments ≠ []) :
    decodeChars ([space].intercalate segments) = spaced (segments.map decodeChars) := by
  apply Lists.apply_intercalate _ hne
  intro before after
  rw [decodeChars_append_cons before after (show space.toNat < 0x80 by decide),
    List.append_assoc]
  rfl

/-- The type of a signature on one line is the words between its comments. -/
theorem oneLine_signatureType
    (src : Source)
    {n : Node}
    (h : (typeRegion n).Proper) :
    oneLine (signatureType src n).text =
      String.ofList (spaced (((typeRegion n).texts src.octets).flatMap words)) := by
  have hparts := betweenMarks_markedRegion src.octets h.inSequence h.start_le_stop
  rw [oneLine_eq, signatureType_text, Node.regionText, decode, String.toList_ofList,
    decodeChars_intercalate_space (segments_ne_nil _ _ _ _), words_spaced,
    TypeRegion.texts, TypeRegion.shown, hparts]
  rfl

/--
The type of a signature is decoded from the octets of its region outside the comments,
in order, with a space for each comment that has a part in the region.  On one line it
is the words of the texts between the comments.  Another signature whose type has
other blanks and comments between the words gets the same line.
-/
theorem signature_type_is_words_of_region
    (src : Source)
    (n : Node)
    (span : Span)
    (names : List Name)
    (type : TypeText)
    (hdecl : (declOf src n).1 = .signature span names type)
    (hproper : (typeRegion n).Proper) :
    type.text = decode (((typeRegion n).shown src.octets).map fun x => x.getD space) ∧
      oneLine type.text =
        String.ofList (spaced (((typeRegion n).texts src.octets).flatMap words)) ∧
      ∀ (src' : Source) (n' : Node) (span' : Span) (names' : List Name) (type' : TypeText),
        (declOf src' n').1 = .signature span' names' type' →
        (typeRegion n').Proper →
        Relation.EqvGen Relaid (marked ((typeRegion n).texts src.octets))
          (marked ((typeRegion n').texts src'.octets)) →
        oneLine type'.text = oneLine type.text := by
  obtain rfl := type_eq_of_declOf hdecl
  refine ⟨?_, oneLine_signatureType src hproper, ?_⟩
  · rw [signatureType_text]
    exact regionText_eq src.octets hproper.inSequence hproper.start_le_stop
  · intro src' n' span' names' type' hdecl' hproper' hrelaid
    obtain rfl := type_eq_of_declOf hdecl'
    have hwords := markedWords_eq_of_relaid hrelaid
    rw [markedWords_marked, markedWords_marked] at hwords
    rw [oneLine_signatureType src hproper, oneLine_signatureType src' hproper', hwords]

namespace Layouts

def first : Row := ⟨0, 0⟩

def compact : Source := ⟨"M.hs", octetsOf "f :: A -> B"⟩

def compactNode : Node :=
  first.node "signature" none 0 11 [
    first.node "variable" (some "name") 0 1 [],
    first.token "::" 2,
    first.node "function" (some "type") 5 11 []]

/-- The same signature with a comment between two words, and one behind the type that
goes on behind the signature. -/
def airy : Source :=
  ⟨"M.hs", octetsOf "f ::\n A\x7b-1-\x7d->\n B --2"⟩

def airyNode : Node :=
  let second : Row := ⟨1, 5⟩
  let third : Row := ⟨2, 15⟩
  first.across third "signature" none 0 5 [
    first.node "variable" (some "name") 0 1 [],
    first.token "::" 2,
    second.across third "function" none 1 2 [second.node "comment" none 2 7 []],
    third.node "comment" none 3 6 []]

theorem proper_compactNode :
    (typeRegion compactNode).Proper :=
  ⟨by decide +kernel, by decide +kernel, by decide +kernel⟩

theorem proper_airyNode :
    (typeRegion airyNode).Proper :=
  ⟨by decide +kernel, by decide +kernel, by decide +kernel⟩

theorem relaid :
    Relation.EqvGen Relaid (marked ((typeRegion compactNode).texts compact.octets))
      (marked ((typeRegion airyNode).texts airy.octets)) := by
  have hcompact :
      marked ((typeRegion compactNode).texts compact.octets) =
        [some 'A', some ' ', some '-', some '>', some ' ', some 'B'] := by
    decide +kernel
  have hairy :
      marked ((typeRegion airyNode).texts airy.octets) =
        [some '\n', some ' ', some 'A', none, some '-', some '>', some '\n', some ' ', some 'B',
          some ' ', none] := by
    decide +kernel
  have hlead := @Relaid.lead
    [some 'A', none, some '-', some '>', some '\n', some ' ', some 'B', some ' ', none]
    [some '\n', some ' '] (List.all_eq_true.1 rfl)
  have htrail := @Relaid.trail
    [some 'A', none, some '-', some '>', some '\n', some ' ', some 'B']
    [some ' ', none] (List.all_eq_true.1 rfl)
  have hremark := @Relaid.between [some 'A']
    [some '-', some '>', some '\n', some ' ', some 'B'] [none] [some ' ']
    ⟨by simp, List.all_eq_true.1 rfl⟩ ⟨by simp, List.all_eq_true.1 rfl⟩
  have hblanks := @Relaid.between [some 'A', some ' ', some '-', some '>'] [some 'B']
    [some '\n', some ' '] [some ' ']
    ⟨by simp, List.all_eq_true.1 rfl⟩ ⟨by simp, List.all_eq_true.1 rfl⟩
  rw [hcompact, hairy]
  apply Relation.EqvGen.symm
  exact .trans _ _ _ (.rel _ _ hlead) (.trans _ _ _ (.rel _ _ htrail)
    (.trans _ _ _ (.rel _ _ hremark) (.rel _ _ hblanks)))

end Layouts

theorem signature_type_is_words_of_region_airy :
    (typeRegion Layouts.compactNode).Proper ∧ (typeRegion Layouts.airyNode).Proper ∧
      (signatureType Layouts.airy Layouts.airyNode).text = "\n A ->\n B  " ∧
      oneLine (signatureType Layouts.airy Layouts.airyNode).text = "A -> B" := by
  obtain ⟨htext, -, -⟩ :=
    signature_type_is_words_of_region Layouts.airy Layouts.airyNode _ _ _ rfl
      Layouts.proper_airyNode
  obtain ⟨-, hline, hsame⟩ :=
    signature_type_is_words_of_region Layouts.compact Layouts.compactNode _ _ _ rfl
      Layouts.proper_compactNode
  have hairy := hsame Layouts.airy Layouts.airyNode _ _ _ rfl Layouts.proper_airyNode
    Layouts.relaid
  refine ⟨Layouts.proper_compactNode, Layouts.proper_airyNode, htext.trans ?_,
    hairy.trans (hline.trans ?_)⟩
  · decide +kernel
  · decide +kernel

end Words

end Outline
end HaskellTags
