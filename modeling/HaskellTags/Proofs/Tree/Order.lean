import HaskellTags.Proofs.Lists
import HaskellTags.Proofs.Tree.Nodes
import Mathlib.Order.Defs.PartialOrder

/-!
# Source order

In a well-placed tree every node lies within its parent and siblings follow each
other without overlap.  Then whatever is found below a node lies within it, and
nodes found below two nodes of which one comes before the other keep that order.
All lookups of an outline go through lists of nodes that are refined in this way,
so `pairwise_flatMap` carries the order from the children of the root down to
the names of constructors.
-/

namespace HaskellTags
namespace Tree

namespace Point

/-- Points by rows, and by columns on one row. -/
instance : Preorder Point where
  le p q := p.row < q.row ∨ p.row = q.row ∧ p.column ≤ q.column
  le_refl p := Or.inr ⟨rfl, Int.le_refl p.column⟩
  le_trans p q r hpq hqr := by
    rcases hpq with hpq | ⟨hpq, hpq'⟩
    · rcases hqr with hqr | ⟨hqr, hqr'⟩
      · exact Or.inl (by omega)
      · exact Or.inl (by omega)
    · rcases hqr with hqr | ⟨hqr, hqr'⟩
      · exact Or.inl (by omega)
      · exact Or.inr ⟨by omega, by omega⟩

theorem le_iff
    {p q : Point} :
    p ≤ q ↔ p.row < q.row ∨ p.row = q.row ∧ p.column ≤ q.column :=
  Iff.rfl

instance (p q : Point) :
    Decidable (p ≤ q) :=
  inferInstanceAs (Decidable (_ ∨ _ ∧ _))

theorem row_le_row
    {p q : Point}
    (h : p ≤ q) :
    p.row ≤ q.row := by
  rcases le_iff.mp h with h | ⟨h, _⟩
  · omega
  · omega

end Point

namespace Node

section Places

/-- A node lies within another one. -/
def Within (m n : Node) : Prop :=
  n.label.start ≤ m.label.start ∧ m.label.stop ≤ n.label.stop

/-- A node ends before another one starts. -/
def Before (m n : Node) : Prop :=
  m.label.stop ≤ n.label.start

/-- A node has a range, its children lie in it and follow each other. -/
structure Arranged (n : Node) : Prop where
  start_le_stop : n.label.start ≤ n.label.stop
  within : ∀ c ∈ n.children, c.Within n
  apart : n.children.Pairwise Before

/-- All nodes of a tree are arranged. -/
def WellPlaced (n : Node) : Prop :=
  ∀ m ∈ n.nodes, m.Arranged

instance (m n : Node) :
    Decidable (m.Within n) :=
  inferInstanceAs (Decidable (_ ∧ _))

instance (m n : Node) :
    Decidable (m.Before n) :=
  inferInstanceAs (Decidable (_ ≤ _))

instance (n : Node) :
    Decidable n.Arranged :=
  decidable_of_iff
    (n.label.start ≤ n.label.stop ∧
      (∀ c ∈ n.children, c.Within n) ∧ n.children.Pairwise Before)
    ⟨fun ⟨hrange, hwithin, hapart⟩ => ⟨hrange, hwithin, hapart⟩,
      fun ⟨hrange, hwithin, hapart⟩ => ⟨hrange, hwithin, hapart⟩⟩

instance (n : Node) :
    Decidable n.WellPlaced :=
  inferInstanceAs (Decidable (∀ m ∈ n.nodes, m.Arranged))

theorem Within.refl
    (n : Node) :
    n.Within n :=
  ⟨le_refl _, le_refl _⟩

theorem Within.trans
    {k m n : Node}
    (hkm : k.Within m)
    (hmn : m.Within n) :
    k.Within n :=
  ⟨le_trans hmn.1 hkm.1, le_trans hkm.2 hmn.2⟩

theorem Before.of_within
    {m n m' n' : Node}
    (h : m.Before n)
    (hm : m'.Within m)
    (hn : n'.Within n) :
    m'.Before n' :=
  calc
    m'.label.stop ≤ m.label.stop := hm.2
    _ ≤ n.label.start := h
    _ ≤ n'.label.start := hn.1

end Places

section Descent

theorem WellPlaced.arranged
    {n : Node}
    (h : n.WellPlaced) :
    n.Arranged :=
  h n (self_mem_nodes n)

theorem WellPlaced.of_mem_nodes
    {m n : Node}
    (h : n.WellPlaced)
    (hm : m ∈ n.nodes) :
    m.WellPlaced := by
  intro k hk
  exact h k (nodes_subset_of_mem_nodes hm hk)

theorem WellPlaced.of_mem_children
    {c n : Node}
    (h : n.WellPlaced)
    (hc : c ∈ n.children) :
    c.WellPlaced :=
  h.of_mem_nodes (nodes_subset_of_mem_children hc (self_mem_nodes c))

mutual

/-- Every node of a well-placed tree lies within its root. -/
theorem within_of_mem_nodes :
    ∀ {m n : Node}, n.WellPlaced → m ∈ n.nodes → m.Within n
  | m, .node l children, h, hm => by
      rw [nodes, List.mem_cons] at hm
      rcases hm with rfl | hbelow
      · exact Within.refl _
      · have hchildren : ∀ c ∈ children, c.WellPlaced :=
          fun c hc => h.of_mem_children hc
        obtain ⟨c, hc, hmc⟩ := within_of_mem_nodesIn hchildren hbelow
        exact hmc.trans (h.arranged.within c hc)

/-- Every node of some well-placed trees lies within the root of one of them. -/
theorem within_of_mem_nodesIn :
    ∀ {m : Node} {ns : List Node},
      (∀ n ∈ ns, n.WellPlaced) → m ∈ nodesIn ns → ∃ n ∈ ns, m.Within n
  | m, [], _, hm => by
      cases hm
  | m, n :: rest, h, hm => by
      rw [nodesIn, List.mem_append] at hm
      rcases hm with hfirst | hlater
      · have hwithin := within_of_mem_nodes (h n List.mem_cons_self) hfirst
        exact ⟨n, List.mem_cons_self, hwithin⟩
      · have hrest : ∀ k ∈ rest, k.WellPlaced :=
          fun k hk => h k (List.mem_cons_of_mem n hk)
        obtain ⟨k, hk, hwithin⟩ := within_of_mem_nodesIn hrest hlater
        exact ⟨k, List.mem_cons_of_mem n hk, hwithin⟩

end

/-- Nodes in order stay in order if each is replaced by ordered nodes within it. -/
theorem pairwise_flatMap
    {ns : List Node}
    {f : Node → List Node}
    (hns : ns.Pairwise Before)
    (hwithin : ∀ n ∈ ns, ∀ m ∈ f n, m.Within n)
    (hf : ∀ n ∈ ns, (f n).Pairwise Before) :
    (ns.flatMap f).Pairwise Before := by
  rw [List.pairwise_flatMap]
  refine ⟨hf, hns.imp_of_mem ?_⟩
  intro m n hm hn hbefore m' hm' n' hn'
  exact hbefore.of_within (hwithin m hm m' hm') (hwithin n hn n' hn')

theorem pairwise_map
    {ns : List Node}
    {f : Node → Node}
    (hns : ns.Pairwise Before)
    (hwithin : ∀ n ∈ ns, (f n).Within n) :
    (ns.map f).Pairwise Before := by
  rw [List.pairwise_map]
  refine hns.imp_of_mem ?_
  intro m n hm hn hbefore
  exact hbefore.of_within (hwithin m hm) (hwithin n hn)

mutual

/-- The outermost nodes of some types come in order. -/
theorem pairwise_outermost
    (types : List String) :
    ∀ {n : Node}, n.WellPlaced → (n.outermost types).Pairwise Before
  | .node l children, h => by
      rw [outermost]
      exact pairwise_outermostIn types (fun c hc => h.of_mem_children hc)
        h.arranged.apart

/-- The outermost nodes of some types among ordered trees come in order. -/
theorem pairwise_outermostIn
    (types : List String) :
    ∀ {ns : List Node},
      (∀ n ∈ ns, n.WellPlaced) → ns.Pairwise Before →
        (outermostIn types ns).Pairwise Before
  | [], _, _ => by
      exact .nil
  | n :: rest, hplaced, hapart => by
      have hn := hplaced n List.mem_cons_self
      have hrest : ∀ k ∈ rest, k.WellPlaced :=
        fun k hk => hplaced k (List.mem_cons_of_mem n hk)
      rw [List.pairwise_cons] at hapart
      rw [outermostIn, List.pairwise_append]
      refine ⟨?_, pairwise_outermostIn types hrest hapart.2, ?_⟩
      · split
        · exact List.pairwise_singleton _ _
        · exact pairwise_outermost types hn
      · intro m hm k hk
        have hmn : m.Within n := by
          split at hm
          · rw [List.mem_singleton.mp hm]
            exact Within.refl n
          · exact within_of_mem_nodes hn
              (nodesIn_children_subset n (outermost_subset types n hm))
        obtain ⟨later, hlater, hwithin⟩ :=
          within_of_mem_nodesIn hrest (outermostIn_subset types rest hk)
        exact (hapart.1 later hlater).of_within hmn hwithin

end

end Descent

section Children

/-- What is below the children before a child ends before it starts. -/
theorem WellPlaced.before_of_mem_nodesIn
    {m c n : Node} {before after : List Node}
    (h : n.WellPlaced)
    (hsplit : n.children = before ++ c :: after)
    (hm : m ∈ nodesIn before) :
    m.Before c := by
  have hapart := h.arranged.apart
  rw [hsplit, List.pairwise_append] at hapart
  have hplaced : ∀ k ∈ before, k.WellPlaced := by
    intro k hk
    apply h.of_mem_children
    rw [hsplit]
    exact List.mem_append_left _ hk
  obtain ⟨k, hk, hmk⟩ := within_of_mem_nodesIn hplaced hm
  exact (hapart.2.2 k hk c List.mem_cons_self).of_within hmk (Within.refl c)

theorem WellPlaced.pairwise_namedChildren
    {n : Node}
    (h : n.WellPlaced) :
    n.namedChildren.Pairwise Before :=
  h.arranged.apart.sublist List.filter_sublist

theorem WellPlaced.pairwise_headChildren
    {n : Node}
    (h : n.WellPlaced) :
    n.headChildren.Pairwise Before :=
  h.arranged.apart.sublist (List.takeWhile_sublist _)

/-- The head of a declaration is over where its colons start. -/
theorem before_colons_of_mem_headChildren
    {n colons c : Node}
    (h : n.WellPlaced)
    (hcolons : (n.children.find? fun c => c.type = Grammar.colons) = some colons)
    (hc : c ∈ n.headChildren) :
    c.Before colons := by
  obtain ⟨htype, before, after, hsplit, _⟩ :=
    List.find?_eq_some_iff_append.mp hcolons
  have hends : (!Grammar.headEnds.contains colons.type) = false := by
    rw [decide_eq_true_eq.mp htype]
    decide
  have hbefore : c ∈ before := by
    rw [headChildren, hsplit] at hc
    exact Lists.mem_of_mem_takeWhile hends hc
  have hapart := h.arranged.apart
  rw [hsplit, List.pairwise_append] at hapart
  exact hapart.2.2 c hbefore colons List.mem_cons_self

/-- What the named children of a node stand for comes in source order. -/
theorem pairwise_flatMap_namedChildren
    {n : Node}
    (h : n.WellPlaced)
    {f : Node → List Node}
    (hsub : ∀ c : Node, f c ⊆ c.nodes)
    (hf : ∀ c : Node, c.WellPlaced → (f c).Pairwise Before) :
    (n.namedChildren.flatMap f).Pairwise Before := by
  have hchild : ∀ c ∈ n.namedChildren, c.WellPlaced :=
    fun c hc => h.of_mem_children (namedChildren_subset n hc)
  apply pairwise_flatMap h.pairwise_namedChildren
  · intro c hc m hm
    exact within_of_mem_nodes (hchild c hc) (hsub c hm)
  · intro c hc
    exact hf c (hchild c hc)

end Children

end Node
end Tree
end HaskellTags
