import HaskellTags.Proofs.Outline.Definitions
import HaskellTags.Proofs.Tree.Order

/-!
# Outlines in source order

The outline of a well-placed tree is a faithful extract of it.  Each declaration
node and each import node with a module gives one part of the outline, in the
order of the tree; the names of a declaration lie within it, and those of its
constructors follow each other.  `SourceOrder` collects these facts.

Names are found by field, in the head of a declaration, or by a search at any
depth, and an operator in parentheses is then replaced by what stands inside.
For containment it is enough that the result is a node below the declaration;
for order each of these ways refines an ordered list of nodes.
-/

namespace HaskellTags

open HaskellTags.Tree

namespace Span

/-- Where a place starts. -/
def start (s : Span) : Point :=
  ⟨s.startLine, s.startColumn⟩

/-- Where a place ends. -/
def stop (s : Span) : Point :=
  ⟨s.endLine, s.endColumn⟩

/-- A place lies within another one. -/
def Within (s t : Span) : Prop :=
  t.start ≤ s.start ∧ s.stop ≤ t.stop

end Span

/-- The constructors of a declaration. -/
def Decl.constructors : Decl → List Constructor
  | .data _ _ _ constructors => constructors
  | _ => []

namespace Outline

open HaskellTags.Tree.Node

section Spans

/-- A point with its row and column counted from one. -/
def fromOne (p : Point) : Point :=
  ⟨p.row + 1, p.column + 1⟩

theorem fromOne_le_fromOne_iff
    {p q : Point} :
    fromOne p ≤ fromOne q ↔ p ≤ q := by
  simp only [fromOne, Point.le_iff]
  omega

theorem start_spanOf
    (src : Source)
    (n : Node) :
    (spanOf src n).start = fromOne n.label.start :=
  rfl

theorem stop_spanOf
    (src : Source)
    (n : Node) :
    (spanOf src n).stop = fromOne n.label.stop :=
  rfl

theorem stop_spanOf_le_start
    (src : Source)
    {m n : Node}
    (h : m.Before n) :
    (spanOf src m).stop ≤ (spanOf src n).start := by
  rw [stop_spanOf, start_spanOf, fromOne_le_fromOne_iff]
  exact h

theorem start_le_stop_spanOf
    (src : Source)
    {n : Node}
    (h : n.Arranged) :
    (spanOf src n).start ≤ (spanOf src n).stop := by
  rw [start_spanOf, stop_spanOf, fromOne_le_fromOne_iff]
  exact h.start_le_stop

theorem spanOf_within
    {src : Source} {m n : Node}
    (h : m.Within n) :
    (spanOf src m).Within (spanOf src n) :=
  ⟨fromOne_le_fromOne_iff.mpr h.1, fromOne_le_fromOne_iff.mpr h.2⟩

/-- Parts that stand where nodes follow each other start one after another. -/
theorem pairwise_start
    {α : Type}
    {src : Source} {ns : List Node}
    {spanAt : α → Span} {parts : List α}
    (hparts : parts.map spanAt = ns.map (spanOf src))
    (hns : ns.Pairwise Before)
    (hplaced : ∀ n ∈ ns, n.WellPlaced) :
    parts.Pairwise fun a b => (spanAt a).start ≤ (spanAt b).start := by
  have hspans : (parts.map spanAt).Pairwise fun s t => s.start ≤ t.start := by
    rw [hparts, List.pairwise_map]
    refine hns.imp_of_mem ?_
    intro m n hm hn hbefore
    exact le_trans (start_le_stop_spanOf src (hplaced m hm).arranged)
      (stop_spanOf_le_start src hbefore)
  rw [List.pairwise_map] at hspans
  exact hspans

end Spans

section Roles

theorem pairwise_declsOfChild
    {c : Node}
    (h : c.WellPlaced) :
    (declsOfChild c).Pairwise Before := by
  unfold declsOfChild
  split_ifs
  · exact .nil
  · exact .nil
  · exact .nil
  · exact .nil
  · exact h.pairwise_namedChildren.sublist List.filter_sublist
  · exact List.pairwise_singleton _ _

theorem pairwise_importsOfChild
    {c : Node}
    (h : c.WellPlaced) :
    (importsOfChild c).Pairwise Before := by
  unfold importsOfChild
  split_ifs
  · exact h.pairwise_namedChildren.sublist List.filter_sublist
  · exact List.pairwise_singleton _ _
  · exact .nil

theorem pairwise_declNodes
    {root : Node}
    (h : root.WellPlaced) :
    (declNodes root).Pairwise Before :=
  pairwise_flatMap_namedChildren h
    (fun c => (declsOfChild_sublist c).subset) (fun _ => pairwise_declsOfChild)

theorem pairwise_importNodes
    {root : Node}
    (h : root.WellPlaced) :
    (importNodes root).Pairwise Before :=
  pairwise_flatMap_namedChildren h
    (fun c => (importsOfChild_sublist c).subset) (fun _ => pairwise_importsOfChild)

end Roles

section Parts

theorem declOf_span
    (src : Source)
    (n : Node) :
    (declOf src n).1.span = spanOf src n := by
  unfold declOf
  split_ifs
  · unfold synonymOf
    cases typeName n <;> rfl
  · unfold dataOf
    cases typeName n <;> rfl
  · unfold dataOf
    cases typeName n <;> rfl
  · unfold signatureOf
    cases signatureNames n <;> rfl
  · rfl

/-- Whether an import names a module. -/
def namesModule (n : Node) : Bool :=
  (n.childByField "module").isSome

theorem isSome_importOf
    (src : Source)
    (n : Node) :
    (importOf src n).isSome = namesModule n := by
  unfold importOf namesModule
  rw [Option.isSome_map]

/-- The imports read off some nodes stand where those with a module stand. -/
theorem spans_filterMap_importOf
    (src : Source)
    (ns : List Node) :
    (ns.filterMap (importOf src)).map Import.span =
      (ns.filter namesModule).map (spanOf src) := by
  induction ns with
  | nil =>
      rfl
  | cons n ns ih =>
      rw [List.filterMap_cons, List.filter_cons, ← isSome_importOf src n]
      cases himport : importOf src n with
      | none =>
          exact ih
      | some i =>
          exact congrArg₂ List.cons (span_of_importOf himport) ih

theorem dataOf_constructors
    (src : Source)
    (form : DataForm)
    (n : Node) :
    (dataOf src form n).1.constructors = [] ∨
    (dataOf src form n).1.constructors =
      (n.outermost Grammar.constructors).flatMap (constructorsOf src) := by
  unfold dataOf
  cases typeName n with
  | none =>
      exact Or.inl rfl
  | some head =>
      exact Or.inr rfl

/-- The constructors of a declaration, if it has any, are those of the constructor
declarations below its node. -/
theorem declOf_constructors
    (src : Source)
    (n : Node) :
    (declOf src n).1.constructors = [] ∨
    (declOf src n).1.constructors =
      (n.outermost Grammar.constructors).flatMap (constructorsOf src) := by
  unfold declOf
  split_ifs
  · left
    unfold synonymOf
    cases typeName n <;> rfl
  · exact dataOf_constructors src .data n
  · exact dataOf_constructors src .newtype n
  · left
    unfold signatureOf
    cases signatureNames n <;> rfl
  · exact Or.inl rfl

end Parts

section Names

theorem exists_node_of_mem_names
    {src : Source} {n : Node} {name : Name}
    (hname : name ∈ (declOf src n).1.names) :
    ∃ m ∈ n.nodes, name.span = spanOf src m := by
  rw [declOf_names] at hname
  obtain ⟨m, hm, rfl⟩ := List.mem_map.mp hname
  exact ⟨nameNode m, declaredNodes_subset n (List.mem_map.mpr ⟨m, hm, rfl⟩), rfl⟩

/-- The nodes that name the constructors of a constructor declaration, with
parentheses taken off. -/
def constructorNodes (con : Node) : List Node :=
  (constructorNames con).map nameNode

theorem constructorNodes_subset
    (con : Node) :
    constructorNodes con ⊆ con.nodes := by
  intro m hm
  obtain ⟨name, hname, rfl⟩ := List.mem_map.mp hm
  exact nodes_subset_of_mem_nodes
    (nodesIn_children_subset con (constructorNames_subset con hname))
    (nameNode_mem name)

theorem pairwise_constructorNames
    {con : Node}
    (h : con.WellPlaced) :
    (constructorNames con).Pairwise Before := by
  unfold constructorNames
  split
  · apply pairwise_outermostIn
    · intro c hc
      exact h.of_mem_children (headChildren_subset con hc)
    · exact h.pairwise_headChildren
  · cases (con.childByField "name").or (con.firstOf constructorTypes) with
    | none =>
        exact .nil
    | some name =>
        exact List.pairwise_singleton _ _

theorem pairwise_constructorNodes
    {con : Node}
    (h : con.WellPlaced) :
    (constructorNodes con).Pairwise Before := by
  apply pairwise_map (pairwise_constructorNames h)
  intro name hname
  have hplaced : name.WellPlaced :=
    h.of_mem_nodes
      (nodesIn_children_subset con (constructorNames_subset con hname))
  exact within_of_mem_nodes hplaced (nameNode_mem name)

theorem mem_constructorsOf
    {src : Source} {con : Node} {c : Constructor}
    (hc : c ∈ constructorsOf src con) :
    c.span = spanOf src con ∧
    ∃ m ∈ constructorNodes con, c.name.span = spanOf src m := by
  obtain ⟨name, hname, rfl⟩ := List.mem_map.mp hc
  exact ⟨rfl, nameNode name, List.mem_map.mpr ⟨name, hname, rfl⟩, rfl⟩

theorem name_within_of_mem_constructorsOf
    {src : Source} {con : Node} {c : Constructor}
    (h : con.WellPlaced)
    (hc : c ∈ constructorsOf src con) :
    c.name.span.Within c.span := by
  obtain ⟨hspan, m, hm, hname⟩ := mem_constructorsOf hc
  rw [hspan, hname]
  exact spanOf_within (within_of_mem_nodes h (constructorNodes_subset con hm))

theorem constructor_names_spans
    (src : Source)
    (cons : List Node) :
    ((cons.flatMap (constructorsOf src)).map fun c => c.name.span) =
      (cons.flatMap constructorNodes).map (spanOf src) := by
  simp only [List.map_flatMap, constructorsOf, constructorNodes, List.map_map]
  rfl

/-- The names of the constructors of a declaration start one after another. -/
theorem pairwise_constructors
    (src : Source)
    {n : Node}
    (h : n.WellPlaced) :
    ((n.outermost Grammar.constructors).flatMap (constructorsOf src)).Pairwise
      fun c c' => c.name.span.start ≤ c'.name.span.start := by
  have hcons : ∀ con ∈ n.outermost Grammar.constructors, con.WellPlaced := by
    intro con hcon
    exact h.of_mem_nodes
      (nodesIn_children_subset n (outermost_subset _ n hcon))
  apply pairwise_start (constructor_names_spans src _)
  · apply pairwise_flatMap (pairwise_outermost _ h)
    · intro con hcon m hm
      exact within_of_mem_nodes (hcons con hcon) (constructorNodes_subset con hm)
    · intro con hcon
      exact pairwise_constructorNodes (hcons con hcon)
  · intro m hm
    obtain ⟨con, hcon, hm⟩ := List.mem_flatMap.mp hm
    exact (hcons con hcon).of_mem_nodes (constructorNodes_subset con hm)

theorem typed_constructor_before_colons
    {src : Source} {con colons : Node} {c : Constructor}
    (h : con.WellPlaced)
    (htype : con.type = Grammar.typedConstructor)
    (hcolons : (con.children.find? fun k => k.type = Grammar.colons) = some colons)
    (hc : c ∈ constructorsOf src con) :
    c.name.span.stop ≤ (spanOf src colons).start := by
  obtain ⟨_, m, hm, hspan⟩ := mem_constructorsOf hc
  obtain ⟨name, hname, rfl⟩ := List.mem_map.mp hm
  rw [constructorNames, if_pos htype] at hname
  -- the name lies within a child of the head, and the head is over at the colons
  have hhead : ∀ k ∈ con.headChildren, k.WellPlaced :=
    fun k hk => h.of_mem_children (headChildren_subset con hk)
  have hbelow := outermostIn_subset constructorTypes con.headChildren hname
  obtain ⟨k, hk, hwithin⟩ := within_of_mem_nodesIn hhead hbelow
  have hplaced : name.WellPlaced :=
    h.of_mem_nodes (nodesIn_children_subset con
      (nodesIn_mono (headChildren_subset con) hbelow))
  have hinner : (nameNode name).Within k :=
    (within_of_mem_nodes hplaced (nameNode_mem name)).trans hwithin
  have hbefore := before_colons_of_mem_headChildren h hcolons hk
  rw [hspan]
  exact stop_spanOf_le_start src (hbefore.of_within hinner (Within.refl colons))

end Names

section Outlines

/-- The outline of a tree keeps everything, once, in the order of the source. -/
structure SourceOrder (src : Source) (root : Node) : Prop where
  /-- There is one declaration for each of the declaration nodes. -/
  decl_spans :
    (ofTree src root).1.decls.map Decl.span = (declNodes root).map (spanOf src)
  /-- There is one import for each of the import nodes that names a module. -/
  import_spans :
    (ofTree src root).1.imports.map Import.span =
      ((importNodes root).filter namesModule).map (spanOf src)
  declNodes_sublist : (declNodes root).Sublist root.nodes
  importNodes_sublist : (importNodes root).Sublist root.nodes
  decls_sorted :
    (ofTree src root).1.decls.Pairwise fun d e => d.span.start ≤ e.span.start
  imports_sorted :
    (ofTree src root).1.imports.Pairwise fun i j => i.span.start ≤ j.span.start
  names_within :
    ∀ d ∈ (ofTree src root).1.decls, ∀ name ∈ d.names, name.span.Within d.span
  /-- The constructors of a declaration come from constructor nodes. -/
  constructors_from :
    ∀ d ∈ (ofTree src root).1.decls, ∀ c ∈ d.constructors,
      ∃ con ∈ root.nodes, c ∈ constructorsOf src con
  constructors_within :
    ∀ d ∈ (ofTree src root).1.decls, ∀ c ∈ d.constructors,
      c.name.span.Within c.span
  constructors_sorted :
    ∀ d ∈ (ofTree src root).1.decls,
      d.constructors.Pairwise fun c c' => c.name.span.start ≤ c'.name.span.start
  /-- The names of constructors declared with their type come before the colons. -/
  typed_names :
    ∀ con ∈ root.nodes, con.type = Grammar.typedConstructor →
      ∀ colons : Node,
        (con.children.find? fun k => k.type = Grammar.colons) = some colons →
        ∀ c ∈ constructorsOf src con,
          c.name.span.stop ≤ (spanOf src colons).start

variable {src : Source} {root : Node}

theorem exists_declNode
    {d : Decl}
    (hd : d ∈ (ofTree src root).1.decls) :
    ∃ n ∈ declNodes root, d = (declOf src n).1 := by
  rw [ofTree_decls] at hd
  obtain ⟨n, hn, rfl⟩ := List.mem_map.mp hd
  exact ⟨n, hn, rfl⟩

theorem wellPlaced_of_mem_declNodes
    (h : root.WellPlaced)
    {n : Node}
    (hn : n ∈ declNodes root) :
    n.WellPlaced :=
  h.of_mem_nodes ((declNodes_sublist_nodes root).subset hn)

theorem spans_decls
    (src : Source)
    (root : Node) :
    (ofTree src root).1.decls.map Decl.span = (declNodes root).map (spanOf src) := by
  rw [ofTree_decls, List.map_map]
  exact List.map_congr_left fun n _ => declOf_span src n

theorem spans_imports
    (src : Source)
    (root : Node) :
    (ofTree src root).1.imports.map Import.span =
      ((importNodes root).filter namesModule).map (spanOf src) := by
  rw [ofTree_imports]
  exact spans_filterMap_importOf src (importNodes root)

/-- The declarations of a well-placed tree do not overlap. -/
theorem pairwise_decls
    (h : root.WellPlaced) :
    (ofTree src root).1.decls.Pairwise fun d e => d.span.stop ≤ e.span.start := by
  rw [ofTree_decls, List.pairwise_map]
  refine (pairwise_declNodes h).imp ?_
  intro m n hbefore
  rw [declOf_span, declOf_span]
  exact stop_spanOf_le_start src hbefore

/-- A name lies within its declaration, and so does the line on which it starts. -/
theorem name_within_decl
    (h : root.WellPlaced)
    {d : Decl}
    (hd : d ∈ (ofTree src root).1.decls)
    {name : Name}
    (hname : name ∈ d.names) :
    name.span.Within d.span ∧ name.span.start ≤ d.span.stop := by
  obtain ⟨n, hn, rfl⟩ := exists_declNode hd
  have hplaced := wellPlaced_of_mem_declNodes h hn
  obtain ⟨m, hm, hspan⟩ := exists_node_of_mem_names hname
  have hwithin : (spanOf src m).Within (spanOf src n) :=
    spanOf_within (within_of_mem_nodes hplaced hm)
  rw [declOf_span, hspan]
  exact ⟨hwithin,
    le_trans (start_le_stop_spanOf src (hplaced m hm)) hwithin.2⟩

theorem exists_constructorNode
    {d : Decl}
    (hd : d ∈ (ofTree src root).1.decls)
    {c : Constructor}
    (hc : c ∈ d.constructors) :
    ∃ con ∈ root.nodes, c ∈ constructorsOf src con := by
  obtain ⟨n, hn, rfl⟩ := exists_declNode hd
  have hnode : n ∈ root.nodes := (declNodes_sublist_nodes root).subset hn
  rcases declOf_constructors src n with hnone | hsome
  · rw [hnone] at hc
    cases hc
  · rw [hsome] at hc
    obtain ⟨con, hcon, hc⟩ := List.mem_flatMap.mp hc
    have hbelow : con ∈ n.nodes :=
      nodesIn_children_subset n (outermost_subset _ n hcon)
    exact ⟨con, nodes_subset_of_mem_nodes hnode hbelow, hc⟩

theorem sourceOrder_of_wellPlaced
    (src : Source)
    (h : root.WellPlaced) :
    SourceOrder src root where
  decl_spans := spans_decls src root
  import_spans := spans_imports src root
  declNodes_sublist := declNodes_sublist_nodes root
  importNodes_sublist := importNodes_sublist_nodes root
  decls_sorted := by
    apply pairwise_start (spans_decls src root) (pairwise_declNodes h)
    exact fun n hn => wellPlaced_of_mem_declNodes h hn
  imports_sorted := by
    apply pairwise_start (spans_imports src root)
      ((pairwise_importNodes h).sublist List.filter_sublist)
    intro n hn
    exact h.of_mem_nodes
      ((importNodes_sublist_nodes root).subset (List.mem_of_mem_filter hn))
  names_within _ hd _ hname := (name_within_decl h hd hname).1
  constructors_from _ hd _ hc := exists_constructorNode hd hc
  constructors_within d hd c hc := by
    obtain ⟨con, hcon, hc⟩ := exists_constructorNode hd hc
    exact name_within_of_mem_constructorsOf (h.of_mem_nodes hcon) hc
  constructors_sorted d hd := by
    obtain ⟨n, hn, rfl⟩ := exists_declNode hd
    rcases declOf_constructors src n with hnone | hsome
    · rw [hnone]
      exact .nil
    · rw [hsome]
      exact pairwise_constructors src (wellPlaced_of_mem_declNodes h hn)
  typed_names con hcon htype colons hcolons c hc :=
    typed_constructor_before_colons (h.of_mem_nodes hcon) htype hcolons hc

end Outlines

end Outline
end HaskellTags
