import HaskellTags.Tree.Grammar
import Mathlib.Data.List.Basic
import Mathlib.Data.List.Flatten

/-!
# The nodes of a concrete tree

All nodes of a tree in source order, each before its children.  Whatever way a
node is looked up (by field, among the named children, in the head of a
declaration, or as an outermost node of some type), it is one of them.

A tree can be written down by rows and columns, each row with the octets before it.
-/

namespace HaskellTags
namespace Tree
namespace Node

mutual

/-- A node and all nodes below it, each before its children. -/
def nodes : Node → List Node
  | .node l children => .node l children :: nodesIn children

/-- Some nodes and all nodes below them. -/
def nodesIn : List Node → List Node
  | [] => []
  | n :: rest => n.nodes ++ nodesIn rest

end

section Membership

theorem nodes_eq
    (n : Node) :
    n.nodes = n :: nodesIn n.children := by
  cases n with
  | node l children =>
      rfl

theorem self_mem_nodes
    (n : Node) :
    n ∈ n.nodes := by
  rw [nodes_eq]
  exact List.mem_cons_self

theorem nodesIn_eq_flatMap
    (ns : List Node) :
    nodesIn ns = ns.flatMap nodes := by
  induction ns with
  | nil =>
      rfl
  | cons n ns ih =>
      rw [nodesIn, ih, List.flatMap_cons]

theorem nodesIn_append
    (ns ms : List Node) :
    nodesIn (ns ++ ms) = nodesIn ns ++ nodesIn ms := by
  simp only [nodesIn_eq_flatMap, List.flatMap_append]

theorem mem_nodesIn
    {m : Node} {ns : List Node} :
    m ∈ nodesIn ns ↔ ∃ n ∈ ns, m ∈ n.nodes := by
  rw [nodesIn_eq_flatMap, List.mem_flatMap]

theorem nodesIn_children_subset
    (n : Node) :
    nodesIn n.children ⊆ n.nodes := by
  rw [nodes_eq]
  exact List.subset_cons_self n _

theorem nodesIn_mono
    {ms ns : List Node}
    (h : ms ⊆ ns) :
    nodesIn ms ⊆ nodesIn ns := by
  intro k hk
  obtain ⟨m, hm, hkm⟩ := mem_nodesIn.mp hk
  exact mem_nodesIn.mpr ⟨m, h hm, hkm⟩

/-- The nodes below a child are below its parent. -/
theorem nodes_subset_of_mem_children
    {c n : Node}
    (hc : c ∈ n.children) :
    c.nodes ⊆ n.nodes := by
  intro m hm
  exact nodesIn_children_subset n (mem_nodesIn.mpr ⟨c, hc, hm⟩)

mutual

/-- The nodes below a node of a tree are nodes of the tree. -/
theorem nodes_subset_of_mem_nodes :
    ∀ {m n : Node}, m ∈ n.nodes → m.nodes ⊆ n.nodes
  | m, .node l children, hm => by
      rw [nodes, List.mem_cons] at hm
      rcases hm with rfl | hbelow
      · exact List.Subset.refl _
      · intro k hk
        exact List.mem_cons_of_mem _ (nodes_subset_of_mem_nodesIn hbelow hk)

/-- The nodes below a node of some trees are nodes of these trees. -/
theorem nodes_subset_of_mem_nodesIn :
    ∀ {m : Node} {ns : List Node}, m ∈ nodesIn ns → m.nodes ⊆ nodesIn ns
  | m, [], hm => by
      cases hm
  | m, n :: rest, hm => by
      rw [nodesIn, List.mem_append] at hm
      intro k hk
      rw [nodesIn, List.mem_append]
      rcases hm with hfirst | hlater
      · exact Or.inl (nodes_subset_of_mem_nodes hfirst hk)
      · exact Or.inr (nodes_subset_of_mem_nodesIn hlater hk)

end

end Membership

section Lookup

theorem namedChildren_subset
    (n : Node) :
    n.namedChildren ⊆ n.children :=
  List.filter_subset_self _

theorem headChildren_subset
    (n : Node) :
    n.headChildren ⊆ n.children :=
  (List.takeWhile_sublist _).subset

theorem mem_children_of_childByField
    {field : String} {n c : Node}
    (h : n.childByField field = some c) :
    c ∈ n.children :=
  List.mem_of_find?_eq_some h

mutual

/-- The outermost nodes of some types are below the node. -/
theorem outermost_subset
    (types : List String) :
    ∀ n : Node, n.outermost types ⊆ nodesIn n.children
  | .node _ children => by
      intro m hm
      rw [outermost] at hm
      exact outermostIn_subset types children hm

/-- The outermost nodes of some types among some nodes are nodes of these trees. -/
theorem outermostIn_subset
    (types : List String) :
    ∀ ns : List Node, outermostIn types ns ⊆ nodesIn ns
  | [] => by
      intro m hm
      cases hm
  | n :: rest => by
      intro m hm
      rw [outermostIn, List.mem_append] at hm
      rw [nodesIn, List.mem_append]
      rcases hm with hfirst | hlater
      · left
        split at hfirst
        · rw [List.mem_singleton.mp hfirst]
          exact self_mem_nodes n
        · exact nodesIn_children_subset n (outermost_subset types n hfirst)
      · exact Or.inr (outermostIn_subset types rest hlater)

end

theorem mem_nodes_of_firstOf
    {types : List String} {n m : Node}
    (h : n.firstOf types = some m) :
    m ∈ nodesIn n.children :=
  outermost_subset types n (List.mem_of_head? h)

mutual

/-- The first of the outermost nodes of some types is the first node of these types in tree
order. -/
theorem head?_outermost
    (types : List String) :
    ∀ n : Node,
      (n.outermost types).head? = (nodesIn n.children).find? fun m => types.contains m.type
  | .node _ children => by
      rw [outermost]
      exact head?_outermostIn types children

/-- The same among some nodes and below them. -/
theorem head?_outermostIn
    (types : List String) :
    ∀ ns : List Node,
      (outermostIn types ns).head? = (nodesIn ns).find? fun m => types.contains m.type
  | [] => by
      rfl
  | n :: rest => by
      rw [outermostIn, nodesIn, nodes_eq, List.head?_append, List.find?_append,
        head?_outermostIn types rest, List.find?_cons]
      cases hn : types.contains n.type with
      | true =>
          rfl
      | false =>
          rw [if_neg Bool.false_ne_true, head?_outermost types n]

end

theorem firstOf_eq_find?
    (types : List String)
    (n : Node) :
    n.firstOf types = (nodesIn n.children).find? fun m => types.contains m.type :=
  head?_outermost types n

end Lookup

section TreeOrder

theorem sublist_nodesIn
    (ns : List Node) :
    ns.Sublist (nodesIn ns) := by
  induction ns with
  | nil =>
      exact List.Sublist.refl []
  | cons n ns ih =>
      have hn : [n].Sublist n.nodes :=
        List.singleton_sublist.mpr (self_mem_nodes n)
      rw [nodesIn]
      exact hn.append ih

theorem namedChildren_sublist_nodes
    (n : Node) :
    n.namedChildren.Sublist n.nodes := by
  have hchildren : n.namedChildren.Sublist n.children :=
    List.filter_sublist
  rw [nodes_eq]
  exact (hchildren.trans (sublist_nodesIn n.children)).cons n

/-- What the named children of a node stand for comes in tree order. -/
theorem flatMap_namedChildren_sublist_nodes
    (n : Node)
    {f : Node → List Node}
    (hf : ∀ c : Node, (f c).Sublist c.nodes) :
    (n.namedChildren.flatMap f).Sublist n.nodes := by
  have hnamed :
      (n.namedChildren.flatMap f).Sublist (n.children.flatMap f) :=
    List.filter_sublist.flatMap f
  have hbelow : (n.children.flatMap f).Sublist (nodesIn n.children) := by
    rw [nodesIn_eq_flatMap]
    exact List.Sublist.flatMap_right n.children fun c _ => hf c
  rw [nodes_eq]
  exact (hnamed.trans hbelow).cons n

end TreeOrder

end Node

section Rows

/-- A row of a source: its number, and how many octets come before it. -/
structure Row where
  number : Nat
  offset : Nat

namespace Row

/-- A named node from a column of one row to a column of another. -/
def across (first last : Row) (type : String) (field : Option String) (start stop : Nat)
    (children : List Node) : Node :=
  .node ⟨type, true, false, first.offset + start, last.offset + stop,
    ⟨first.number, start⟩, ⟨last.number, stop⟩, field⟩ children

/-- A named node on one row. -/
def node (row : Row) : String → Option String → Nat → Nat → List Node → Node :=
  row.across row

/-- A token, which is its own type and has no name. -/
def token (row : Row) (text : String) (start : Nat) : Node :=
  let stop := start + text.length
  .node ⟨text, false, false, row.offset + start, row.offset + stop,
    ⟨row.number, start⟩, ⟨row.number, stop⟩, none⟩ []

end Row

end Rows

end Tree
end HaskellTags
