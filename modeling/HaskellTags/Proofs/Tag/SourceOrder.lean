import HaskellTags.Proofs.Outline.SourceOrder
import HaskellTags.Proofs.Tag.Locators

/-!
# Tags in source order

The tags of a declaration lie on lines of the declaration, since its names lie
within it.  Declarations of a well-placed tree follow each other, so the lines
of their tags do as well: a tag of an earlier declaration is never on a later
line than a tag of a later declaration.
-/

namespace HaskellTags
namespace Tag

open Text HaskellTags.Tree Outline

section Lines

variable {render : Renderer} {lines : List String}

/-- A tag of a declaration is on the line of one of its names. -/
theorem exists_name_of_mem
    {d : Decl} {g : List Tag} {t : Tag}
    (h : (ofDeclWith render lines d).outcome = .ok g)
    (ht : t ∈ g) :
    ∃ name ∈ d.names, t.line = name.span.startLine := by
  rw [ofDeclWith_outcome, Outcome.mapM_eq_ok_iff] at h
  obtain ⟨s, hs, pattern, rfl⟩ := exists_site_of_mem h ht
  have hplace :
      (s.name, s.span) ∈ d.names.map fun name => (name.text, name.span) := by
    rw [← places_sitesOfDecl render d]
    exact List.mem_map.mpr ⟨s, hs, rfl⟩
  obtain ⟨name, hname, hplace⟩ := List.mem_map.mp hplace
  have hspan : name.span = s.span := congrArg Prod.snd hplace
  exact ⟨name, hname, by rw [hspan]; rfl⟩

/-- The lines of tags of a declaration are lines of the declaration. -/
theorem line_within_decl
    {src : Source} {root : Node}
    (h : root.WellPlaced)
    {d : Decl} {g : List Tag}
    (hd : d ∈ (ofTree src root).1.decls)
    (hg : (ofDeclWith render lines d).outcome = .ok g)
    {t : Tag}
    (ht : t ∈ g) :
    d.span.startLine ≤ t.line ∧ t.line ≤ d.span.endLine := by
  obtain ⟨name, hname, hline⟩ := exists_name_of_mem hg ht
  obtain ⟨hwithin, hstop⟩ := name_within_decl h hd hname
  rw [hline]
  exact ⟨Point.row_le_row hwithin.1, Point.row_le_row hstop⟩

end Lines

section Modules

/-- No tag of a group is on a later line than a tag of a later group. -/
def LinesInOrder (groups : List (List Tag)) : Prop :=
  groups.Pairwise fun g g' => ∀ s ∈ g, ∀ t ∈ g', s.line ≤ t.line

variable {render : Renderer} {lines : List String}

theorem linesInOrder_of_wellPlaced
    {src : Source} {root : Node}
    (h : root.WellPlaced)
    {groups : List (List Tag)}
    (hgroups :
      List.Forall₂ (fun d g => (ofDeclWith render lines d).outcome = .ok g)
        (ofTree src root).1.decls groups) :
    LinesInOrder groups := by
  have hlines :
      List.Forall₂
        (fun (d : Decl) (g : List Tag) =>
          ∀ t ∈ g, d.span.startLine ≤ t.line ∧ t.line ≤ d.span.endLine)
        (ofTree src root).1.decls groups := by
    have hmem := (List.forall₂_and_left _ _).mpr ⟨fun d hd => hd, hgroups⟩
    refine hmem.imp ?_
    rintro d g ⟨hd, hg⟩ t ht
    exact line_within_decl h hd hg ht
  refine Lists.pairwise_of_forall₂ hlines (pairwise_decls h) ?_
  intro d e g g' hg hg' hapart s hs t ht
  calc
    s.line ≤ d.span.endLine := (hg s hs).2
    _ ≤ e.span.startLine := Point.row_le_row hapart
    _ ≤ t.line := (hg' t ht).1

/--
The outline of a well-placed tree keeps the order of the source, and so do its
tags, with whatever lines and renderer: those of the module and of its imports
come first, and then one group for each declaration, whose lines never go back.
-/
theorem tags_in_source_order
    (src : Source)
    (root : Node)
    (h : root.WellPlaced) :
    SourceOrder src root ∧
    ∀ (render : Renderer) (lines : List String) (tags : List Tag),
      (ofModuleWith render lines (ofTree src root).1).outcome = .ok tags →
      ∃ (head imports : List Tag) (groups : List (List Tag)),
        tags = head ++ imports ++ groups.flatten ∧
        List.Forall₂ (fun name t => ofHead lines name = .ok t)
          (ofTree src root).1.head.toList head ∧
        List.Forall₂ (fun i t => ofImport lines i = .ok t)
          (ofTree src root).1.imports imports ∧
        List.Forall₂ (fun d g => (ofDeclWith render lines d).outcome = .ok g)
          (ofTree src root).1.decls groups ∧
        LinesInOrder groups := by
  refine ⟨sourceOrder_of_wellPlaced src h, ?_⟩
  intro render lines tags htags
  obtain ⟨head, imports, groups, heq, hhead, himports, hgroups⟩ :=
    exists_groups_of_ofModuleWith htags
  exact ⟨head, imports, groups, heq, hhead, himports, hgroups,
    linesInOrder_of_wellPlaced h hgroups⟩

end Modules

namespace Ordered

def lines : List String :=
  ["import A", "data T = (:+) | C", "data G where D, E :: G", "f, g :: T"]

def source : Source where
  file := "M.hs"
  octets := octetsOf ("\n".intercalate lines)

/-- How many octets come before a row. -/
def offset (row : Nat) : Nat :=
  ((lines.take row).map fun line => line.length + 1).foldl (· + ·) 0

def row (number : Nat) : Row :=
  ⟨number, offset number⟩

/-- A tree with an operator in parentheses, constructors that share a type and a
signature of two names. -/
def tree : Node :=
  (row 0).across (row 3) "haskell" none 0 9 [
    (row 0).node "imports" none 0 8 [
      (row 0).node "import" none 0 8 [
        (row 0).token "import" 0, (row 0).node "module" (some "module") 7 8 []]],
    (row 1).across (row 3) "declarations" none 0 9 [
      (row 1).node "data_type" none 0 17 [
        (row 1).token "data" 0, (row 1).node "name" (some "name") 5 6 [], (row 1).token "=" 7,
        (row 1).node "data_constructor" none 9 13 [
          (row 1).node "prefix_id" (some "name") 9 13 [
            (row 1).token "(" 9, (row 1).node "constructor_operator" none 10 12 [],
            (row 1).token ")" 12]],
        (row 1).token "|" 14,
        (row 1).node "data_constructor" none 16 17 [
          (row 1).node "constructor" none 16 17 []]],
      (row 2).node "data_type" none 0 22 [
        (row 2).token "data" 0, (row 2).node "name" none 5 6 [], (row 2).token "where" 7,
        (row 2).node "gadt_constructor" none 13 22 [
          (row 2).node "constructor" none 13 14 [], (row 2).token "," 14,
          (row 2).node "constructor" none 16 17 [], (row 2).token "::" 18,
          (row 2).node "name" (some "type") 21 22 []]],
      (row 3).node "signature" none 0 9 [
        (row 3).node "binding_list" (some "names") 0 4 [
          (row 3).node "variable" none 0 1 [], (row 3).token "," 1,
          (row 3).node "variable" none 3 4 []],
        (row 3).token "::" 5, (row 3).node "name" (some "type") 8 9 []]]]

end Ordered

theorem tags_in_source_order_of_tree :
    Ordered.tree.WellPlaced ∧
    SourceOrder Ordered.source Ordered.tree ∧
    ∃ tags : List Tag,
      (ofModuleWith (.ofText Text.oneLine) Ordered.lines
        (ofTree Ordered.source Ordered.tree).1).outcome = .ok tags ∧
      tags.map (fun t => (t.name, t.line)) =
        [("A", 1), ("T", 2), (":+", 2), ("C", 2), ("G", 3), ("D", 3), ("E", 3),
          ("f", 4), ("g", 4)] ∧
      ∃ (before : List Tag) (groups : List (List Tag)),
        tags = before ++ groups.flatten ∧ groups.length = 3 ∧
        LinesInOrder groups := by
  have hplaced : Ordered.tree.WellPlaced := by
    decide +kernel
  have horder := tags_in_source_order Ordered.source Ordered.tree hplaced
  obtain ⟨tags, htags, hnames⟩ :
      ∃ tags : List Tag,
        (ofModuleWith (.ofText Text.oneLine) Ordered.lines
          (ofTree Ordered.source Ordered.tree).1).outcome = .ok tags ∧
        tags.map (fun t => (t.name, t.line)) =
          [("A", 1), ("T", 2), (":+", 2), ("C", 2), ("G", 3), ("D", 3), ("E", 3),
            ("f", 4), ("g", 4)] :=
    ⟨_, rfl, by decide +kernel⟩
  obtain ⟨head, imports, groups, heq, _, _, hgroups, hlines⟩ :=
    horder.2 (.ofText Text.oneLine) Ordered.lines tags htags
  have hlength : groups.length = 3 := by
    rw [← hgroups.length_eq]
    decide +kernel
  exact ⟨hplaced, horder.1, tags, htags, hnames, head ++ imports, groups, heq,
    hlength, hlines⟩

end Tag
end HaskellTags
