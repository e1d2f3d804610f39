import HaskellTags.Proofs.Outline.Definitions
import HaskellTags.Proofs.Tag.Sites
import HaskellTags.Proofs.Text.Rows
import HaskellTags.Text.Blank

/-!
# Locators

A tag points at its entity by a line number and by the text of that line.  This
module follows the pointer back: from a concrete tree whose defining nodes stand
where their rows say, every tag gets the line of its node, and the name stands
in the pattern just after the decoded octets that precede the node on its line.

The source may be any octets.  What the tree has to fulfil is `Node.Placed` for
the nodes that give names, and `Node.RowWithin` for those that give only rows.
-/

namespace HaskellTags

open Text HaskellTags.Tree

section Places

/-- The first row of a node is a row of the source. -/
def Tree.Node.RowWithin (source : Octets) (n : Node) : Prop :=
  0 ≤ n.label.start.row ∧ n.label.start.row ≤ source.count lineFeed

/-- A node is a piece of the line that its row counts. -/
structure Tree.Node.Placed (source : Octets) (n : Node) : Prop where
  row_eq : n.label.start.row = (source.take n.label.startByte).count lineFeed
  piece : LinePiece source n.label.startByte n.label.endByte

instance (source : Octets) (n : Node) :
    Decidable (n.RowWithin source) :=
  inferInstanceAs (Decidable (_ ∧ _))

instance (source : Octets) (n : Node) :
    Decidable (n.Placed source) :=
  decidable_of_iff
    (n.label.start.row = (source.take n.label.startByte).count lineFeed ∧
      LinePiece source n.label.startByte n.label.endByte)
    ⟨fun ⟨hrow, hpiece⟩ => ⟨hrow, hpiece⟩,
      fun ⟨hrow, hpiece⟩ => ⟨hrow, hpiece⟩⟩

theorem Tree.Node.Placed.rowWithin
    {source : Octets} {n : Node}
    (h : n.Placed source) :
    n.RowWithin source := by
  have hcount :
      (source.take n.label.startByte).count lineFeed ≤ source.count lineFeed :=
    (List.take_sublist _ _).count_le _
  constructor
  · rw [h.row_eq]
    exact Int.natCast_nonneg _
  · rw [h.row_eq]
    exact Int.ofNat_le.mpr hcount

end Places

namespace Tag

section Definitions

/-- The tag stands where a name stands and shows the line of that place. -/
structure StandsAt (lines : List String) (place : String × Span) (t : Tag) : Prop where
  name_eq : t.name = place.1
  file_eq : t.file = place.2.file
  line_eq : t.line = place.2.startLine
  pattern_eq : lineAt lines place.2.startLine = some t.pattern

theorem StandsAt.of_tag?
    {lines : List String} {s : Site} {t : Tag}
    (h : s.tag? lines = .ok t) :
    StandsAt lines (s.name, s.span) t := by
  obtain ⟨pattern, hline, rfl⟩ := tag?_eq_ok_iff.mp h
  exact ⟨rfl, rfl, rfl, hline⟩

variable (render : Renderer)

/-- No declaration has the tag of an import. -/
theorem kind_ne_importing_of_mem_sitesOfDecl
    {d : Decl} {s : Site}
    (hs : s ∈ sitesOfDecl render d) :
    s.kind ≠ .importing := by
  cases d with
  | synonym span head =>
      simp only [sitesOfDecl, List.mem_singleton] at hs
      simp [hs]
  | data span form head constructors =>
      simp only [sitesOfDecl, List.mem_cons, List.mem_map] at hs
      rcases hs with rfl | ⟨c, _, rfl⟩
      · cases form <;> simp [kindOf]
      · simp [siteOfConstructor]
  | signature span names type =>
      simp only [sitesOfDecl, List.mem_map] at hs
      obtain ⟨name, _, rfl⟩ := hs
      simp [siteOfFunction]
  | other span form =>
      cases hs
  | loose c =>
      cases hs

theorem places_sitesOfDecl
    (d : Decl) :
    ((sitesOfDecl render d).map fun s => (s.name, s.span)) =
      d.names.map fun name => (name.text, name.span) := by
  cases d with
  | synonym span head =>
      rfl
  | data span form head constructors =>
      simp [sitesOfDecl, Decl.names, siteOfConstructor, Function.comp_def]
  | signature span names type =>
      simp [sitesOfDecl, Decl.names, siteOfFunction, Function.comp_def]
  | other span form =>
      rfl
  | loose c =>
      rfl

/-- Apart from imports, the sites of a module are what it defines. -/
theorem places_sitesOf
    (m : Module) :
    (((sitesOf render m).filter fun s => s.kind ≠ .importing).map
        fun s => (s.name, s.span)) =
      m.definitions := by
  have hhead :
      ((m.head.toList.map siteOfHead).filter fun s => s.kind ≠ .importing) =
        m.head.toList.map siteOfHead := by
    rw [List.filter_eq_self]
    intro s hs
    obtain ⟨name, _, rfl⟩ := List.mem_map.mp hs
    simp [siteOfHead]
  have himports :
      ((m.imports.map siteOfImport).filter fun s => s.kind ≠ .importing) = [] := by
    rw [List.filter_eq_nil_iff]
    intro s hs
    obtain ⟨i, _, rfl⟩ := List.mem_map.mp hs
    simp [siteOfImport]
  have hdecls :
      ((m.decls.flatMap (sitesOfDecl render)).filter
          fun s => s.kind ≠ .importing) =
        m.decls.flatMap (sitesOfDecl render) := by
    rw [List.filter_eq_self]
    intro s hs
    obtain ⟨d, _, hd⟩ := List.mem_flatMap.mp hs
    simpa using kind_ne_importing_of_mem_sitesOfDecl render hd
  rw [sitesOf, List.filter_append, List.filter_append, hhead, himports, hdecls,
    List.append_nil, List.map_append, List.map_flatMap]
  simp only [places_sitesOfDecl, List.map_map]
  rfl

end Definitions

section Success

/-- Apart from imports, the tags of a module stand where its names stand. -/
theorem forall₂_standsAt
    (render : String → String)
    {lines : List String} {m : Module} {tags : List Tag}
    (h : (ofModule render lines m).outcome = .ok tags) :
    List.Forall₂ (StandsAt lines) m.definitions
      (tags.filter fun t => t.kind ≠ .importing) := by
  rw [ofModule, ofModuleWith_outcome_eq_ok_iff] at h
  rw [← places_sitesOf (.ofText render) m, List.forall₂_map_left_iff]
  have hkind :
      ∀ (s : Site) (t : Tag), s.tag? lines = .ok t →
        ((decide (s.kind ≠ .importing)) = true ↔
          (decide (t.kind ≠ .importing)) = true) := by
    intro s t ht
    obtain ⟨pattern, _, rfl⟩ := tag?_eq_ok_iff.mp ht
    exact Iff.rfl
  exact (List.rel_filter (fun s t ht => hkind s t ht) h).imp
    fun s t ht => StandsAt.of_tag? ht

/-- A node whose row is a row of the source has a line there. -/
theorem exists_lineAt_of_rowWithin
    {source : Octets} {n : Node}
    (h : n.RowWithin source) :
    ∃ line : String,
      lineAt (lines (decode source)) (n.label.start.row + 1) = some line := by
  obtain ⟨row, hrow⟩ := Int.eq_ofNat_of_zero_le h.1
  have hlt : row < (lines (decode source)).length := by
    have hle := h.2
    rw [length_lines_decode]
    omega
  refine ⟨(lines (decode source))[row], ?_⟩
  rw [hrow]
  exact (lineAt_add_one _ row).trans (List.getElem?_eq_getElem hlt)

/-- The site of an import comes from an import of the module. -/
theorem exists_import_of_mem_sitesOf
    (render : Renderer)
    {m : Module} {s : Site}
    (hs : s ∈ sitesOf render m)
    (hkind : s.kind = .importing) :
    ∃ i ∈ m.imports, s = siteOfImport i := by
  rw [sitesOf, List.mem_append, List.mem_append] at hs
  rcases hs with (hhead | himport) | hdecl
  · obtain ⟨name, _, rfl⟩ := List.mem_map.mp hhead
    cases hkind
  · obtain ⟨i, hi, rfl⟩ := List.mem_map.mp himport
    exact ⟨i, hi, rfl⟩
  · obtain ⟨d, _, hd⟩ := List.mem_flatMap.mp hdecl
    exact absurd hkind (kind_ne_importing_of_mem_sitesOfDecl render hd)

/-- Every site of a module is the place of a defining node or an import node. -/
theorem exists_node_of_mem_sitesOf
    (render : Renderer)
    {src : Outline.Source} {root : Node} {s : Site}
    (hs : s ∈ sitesOf render (Outline.ofTree src root).1) :
    ∃ n ∈ Outline.definingNodes root ++ Outline.importNodes root,
      s.span = Outline.spanOf src n := by
  by_cases hkind : s.kind = .importing
  · obtain ⟨i, hi, rfl⟩ := exists_import_of_mem_sitesOf render hs hkind
    rw [Outline.ofTree_imports] at hi
    obtain ⟨n, hn, hi⟩ := List.mem_filterMap.mp hi
    exact ⟨n, List.mem_append_right _ hn, Outline.span_of_importOf hi⟩
  · have hplace :
        (s.name, s.span) ∈ (Outline.ofTree src root).1.definitions := by
      rw [← places_sitesOf render]
      exact List.mem_map.mpr ⟨s, List.mem_filter.mpr ⟨hs, by simpa using hkind⟩, rfl⟩
    rw [Outline.ofTree_definitions] at hplace
    obtain ⟨n, hn, hplace⟩ := List.mem_map.mp hplace
    exact ⟨n, List.mem_append_left _ hn, (congrArg Prod.snd hplace).symm⟩

/--
A module has tags if the rows of its defining nodes and of its imports are rows
of the source.
-/
theorem exists_tags_of_rowWithin
    (render : String → String)
    {src : Outline.Source} {root : Node}
    (hrows : ∀ n ∈ Outline.definingNodes root ++ Outline.importNodes root,
      n.RowWithin src.octets) :
    ∃ tags : List Tag,
      (ofModule render (lines (decode src.octets))
        (Outline.ofTree src root).1).outcome = .ok tags := by
  rw [ofModule, ofModuleWith_outcome]
  apply Outcome.exists_mapM_eq_ok
  intro s hs
  obtain ⟨n, hn, hspan⟩ := exists_node_of_mem_sitesOf _ hs
  obtain ⟨line, hline⟩ := exists_lineAt_of_rowWithin (hrows n hn)
  refine ⟨s.withPattern line, tag?_eq_ok_iff.mpr ⟨line, ?_, rfl⟩⟩
  rw [hspan]
  exact hline

end Success

section Location

/-- A tag leads to the node that names its entity. -/
structure Locates (src : Outline.Source) (n : Node) (t : Tag) : Prop where
  name_eq : t.name = decode (slice src.octets n.label.startByte n.label.endByte)
  line_eq : t.line = n.label.start.row + 1
  pattern_eq :
    ∃ rest : String,
      t.pattern =
        decode (slice src.octets (lineStart src.octets n.label.startByte)
          n.label.startByte) ++ t.name ++ rest

theorem locates_of_standsAt
    {src : Outline.Source} {n : Node} {t : Tag}
    (hn : n.Placed src.octets)
    (ht : StandsAt (lines (decode src.octets)) (Outline.placeOf src n) t) :
    Locates src n t := by
  obtain ⟨hname, _, hline, hpattern⟩ := ht
  refine ⟨hname, hline, ?_⟩
  obtain ⟨rest, hrest⟩ := hn.piece.exists_line
  have hfound :
      lineAt (lines (decode src.octets)) (n.label.start.row + 1) =
        some t.pattern :=
    hpattern
  rw [hn.row_eq, lineAt_add_one, hrest, Option.some.injEq] at hfound
  refine ⟨rest, ?_⟩
  rw [← hfound, hname]
  rfl

/--
Whatever the octets of a source are, if the nodes that name something are
pieces of their lines, the module has tags and each of them, imports apart,
leads to its node: the tags and the defining nodes go in parallel.
-/
theorem tags_locate_definingNodes
    (render : String → String)
    (src : Outline.Source)
    (root : Node)
    (hnames : ∀ n ∈ Outline.definingNodes root, n.Placed src.octets)
    (himports : ∀ n ∈ Outline.importNodes root, n.RowWithin src.octets) :
    ∃ tags : List Tag,
      (ofModule render (lines (decode src.octets))
        (Outline.ofTree src root).1).outcome = .ok tags ∧
      List.Forall₂ (Locates src) (Outline.definingNodes root)
        (tags.filter fun t => t.kind ≠ .importing) := by
  have hrows :
      ∀ n ∈ Outline.definingNodes root ++ Outline.importNodes root,
        n.RowWithin src.octets := by
    intro n hn
    rcases List.mem_append.mp hn with hn | hn
    · exact (hnames n hn).rowWithin
    · exact himports n hn
  obtain ⟨tags, htags⟩ := exists_tags_of_rowWithin render hrows
  refine ⟨tags, htags, ?_⟩
  have hstand := forall₂_standsAt render htags
  rw [Outline.ofTree_definitions, List.forall₂_map_left_iff] at hstand
  have hboth := (List.forall₂_and_left _ _).mpr ⟨hnames, hstand⟩
  exact hboth.imp fun n t h => locates_of_standsAt h.1 h.2

namespace Sample

/-- A source with carriage returns, an ill-formed comment and an operator in
parentheses. -/
def source : Outline.Source where
  file := "M.hs"
  octets :=
    octetsOf "module M where\r\nimport A\r\n\x7b-" ++ [0xE2, 0x82] ++
      octetsOf "-\x7d data T = (:+) Int"

/-- The tree of the source. -/
def tree : Node :=
  let first : Row := ⟨0, 0⟩
  let second : Row := ⟨1, 16⟩
  let third : Row := ⟨2, 26⟩
  first.across third "haskell" none 0 24 [
    first.node "header" none 0 14 [first.node "module" (some "module") 7 8 []],
    second.node "imports" none 0 8 [
      second.node "import" none 0 8 [second.node "module" (some "module") 7 8 []]],
    third.node "declarations" none 7 24 [
      third.node "data_type" none 7 24 [
        third.node "name" (some "name") 12 13 [],
        third.node "data_constructor" none 16 24 [
          third.node "prefix_id" (some "name") 16 20 [
            third.node "constructor_operator" none 17 19 []]]]]]

end Sample

theorem tags_locate_sample :
    (∀ n ∈ Outline.definingNodes Sample.tree, n.Placed Sample.source.octets) ∧
    (∀ n ∈ Outline.importNodes Sample.tree, n.RowWithin Sample.source.octets) ∧
    ∃ tags : List Tag,
      (ofModule oneLine (lines (decode Sample.source.octets))
        (Outline.ofTree Sample.source Sample.tree).1).outcome = .ok tags ∧
      List.Forall₂ (Locates Sample.source) (Outline.definingNodes Sample.tree)
        (tags.filter fun t => t.kind ≠ .importing) := by
  have hnames :
      ∀ n ∈ Outline.definingNodes Sample.tree,
        n.Placed Sample.source.octets := by
    decide +kernel
  have himports :
      ∀ n ∈ Outline.importNodes Sample.tree,
        n.RowWithin Sample.source.octets := by
    decide +kernel
  exact
    ⟨hnames, himports,
      tags_locate_definingNodes oneLine Sample.source Sample.tree
        hnames himports⟩

end Location

end Tag
end HaskellTags
