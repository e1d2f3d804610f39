import HaskellTags.Proofs.Lists
import HaskellTags.Proofs.Tree.Nodes

/-!
# Addresses in a concrete tree

Two nodes of a tree may be equal and still be two nodes.  What tells them apart is the
address: the numbers of the children to take on the way down to a node.  The nodes above
a node are found at the starts of its address, and the order of a tree, in which a node
comes before the nodes below it and these before the nodes to the right, is the order of
the addresses as words of a dictionary.

What is gathered from the children of a node, one child after another, keeps this order:
`pairwise_gathered`, `mem_gathered_iff` and `map_at?_gathered` say so once for every way of
gathering.  The first use is the list of all addresses of a tree.
-/

namespace HaskellTags
namespace Tree

/-- The numbers of the children to take on the way down. -/
abbrev Address := List Nat

namespace Address

/-- An address comes before all that continue it, and before those that turn to the right
of it. -/
def Before (p q : Address) : Prop :=
  Lists.InLexOrder (· < ·) p q ∧ p ≠ q

theorem nil_before_cons
    (i : Nat)
    (p : Address) :
    Before [] (i :: p) :=
  ⟨Lists.nil_inLexOrder _, List.cons_ne_nil i p |>.symm⟩

theorem before_cons_of_lt
    {i j : Nat}
    (h : i < j)
    (p q : Address) :
    Before (i :: p) (j :: q) := by
  refine ⟨Lists.inLexOrder_cons_iff.2 (.inl h), ?_⟩
  intro heq
  exact absurd (List.cons.inj heq).1 (Nat.ne_of_lt h)

theorem Before.cons
    {p q : Address}
    (h : Before p q)
    (i : Nat) :
    Before (i :: p) (i :: q) :=
  ⟨Lists.inLexOrder_cons_iff.2 (.inr ⟨rfl, h.1⟩), fun heq => h.2 (List.cons.inj heq).2⟩

/-- What comes before an address, or is it, also comes before all that continue it. -/
theorem inLexOrder_of_start
    {p q r : Address}
    (hpq : Lists.InLexOrder (· < ·) p q)
    (hqr : q <+: r) :
    Lists.InLexOrder (· < ·) p r := by
  refine Lists.inLexOrder_trans ?_ hpq (.inl hqr)
  intro x y z hxy hyz
  exact Nat.lt_trans hxy hyz

end Address

namespace Node

/-- What holds of a node if it holds of its children holds of every node. -/
theorem children_induction
    {P : Node → Prop}
    (hnode : ∀ l children, (∀ c ∈ children, P c) → P (.node l children))
    (n : Node) :
    P n := by
  refine @Node.rec P (fun children => ∀ c ∈ children, P c) hnode ?_ ?_ n
  · intro c hc
    cases hc
  · intro first rest hfirst hrest c hc
    rcases List.mem_cons.1 hc with rfl | hlater
    · exact hfirst
    · exact hrest c hlater

/-- The node at an address. -/
def at? : Node → Address → Option Node
  | n, [] => some n
  | n, i :: p => n.children[i]?.bind fun c => c.at? p

@[simp] theorem at?_nil
    (n : Node) :
    n.at? [] = some n := by
  rfl

theorem at?_cons
    (l : Label)
    (children : List Node)
    (i : Nat)
    (p : Address) :
    (Node.node l children).at? (i :: p) = children[i]?.bind fun c => c.at? p := by
  rfl

section Gathering

/-- The addresses that are gathered from some nodes, whose numbers start at `i`. -/
def gathered (f : Node → List Address) : Nat → List Node → List Address
  | _, [] => []
  | i, n :: rest => (f n).map (i :: ·) ++ gathered f (i + 1) rest

variable {f : Node → List Address} {p : Address} {ns : List Node}

theorem mem_gathered_from_iff
    {i : Nat} :
    p ∈ gathered f i ns ↔ ∃ k q c, p = (i + k) :: q ∧ ns[k]? = some c ∧ q ∈ f c := by
  induction ns generalizing i with
  | nil =>
      simp [gathered]
  | cons n ns ih =>
      rw [gathered, List.mem_append, List.mem_map, ih]
      constructor
      · rintro (⟨q, hq, rfl⟩ | ⟨k, q, c, rfl, hc, hq⟩)
        · exact ⟨0, q, n, rfl, rfl, hq⟩
        · exact ⟨k + 1, q, c, by rw [Nat.add_right_comm, Nat.add_assoc], hc, hq⟩
      · rintro ⟨k, q, c, rfl, hc, hq⟩
        cases k with
        | zero =>
            cases hc
            exact .inl ⟨q, hq, rfl⟩
        | succ k =>
            exact .inr ⟨k, q, c, by rw [Nat.add_right_comm, Nat.add_assoc], hc, hq⟩

theorem mem_gathered_iff :
    p ∈ gathered f 0 ns ↔ ∃ i q c, p = i :: q ∧ ns[i]? = some c ∧ q ∈ f c := by
  simp only [mem_gathered_from_iff, Nat.zero_add]

/-- Addresses gathered in order are in order. -/
theorem pairwise_gathered
    (hf : ∀ n ∈ ns, (f n).Pairwise Address.Before)
    (i : Nat) :
    (gathered f i ns).Pairwise Address.Before := by
  induction ns generalizing i with
  | nil =>
      exact .nil
  | cons n ns ih =>
      rw [gathered, List.pairwise_append]
      refine ⟨?_, ih (fun m hm => hf m (List.mem_cons_of_mem n hm)) (i + 1), ?_⟩
      · rw [List.pairwise_map]
        exact (hf n List.mem_cons_self).imp fun h => h.cons i
      · intro p hp q hq
        obtain ⟨p, -, rfl⟩ := List.mem_map.1 hp
        obtain ⟨k, q, c, rfl, -, -⟩ := mem_gathered_from_iff.1 hq
        exact Address.before_cons_of_lt (by omega) p q

/-- The nodes at gathered addresses are those that are gathered in the same way. -/
theorem map_at?_gathered
    {g : Node → List Node} {children : List Node}
    (hf : ∀ c ∈ children, (f c).map c.at? = (g c).map some)
    (l : Label) :
    (gathered f 0 children).map (Node.node l children).at? = (children.flatMap g).map some := by
  -- Some children have been passed already; they still count for the numbers.
  have hfrom : ∀ before rest : List Node, children = before ++ rest →
      (gathered f before.length rest).map (Node.node l children).at? =
        (rest.flatMap g).map some := by
    intro before rest hsplit
    induction rest generalizing before with
    | nil =>
        rfl
    | cons c rest ih =>
        have hc : children[before.length]? = some c := by
          rw [hsplit, List.getElem?_append_right (Nat.le_refl _), Nat.sub_self]
          rfl
        have hmem : c ∈ children := List.mem_of_getElem? hc
        have hnext := ih (before ++ [c]) (by rw [hsplit, List.append_assoc]; rfl)
        rw [List.length_append, List.length_singleton] at hnext
        rw [gathered, List.map_append, hnext, List.flatMap_cons, List.map_append, List.map_map,
          ← hf c hmem]
        refine congrArg (· ++ _) (List.map_congr_left ?_)
        intro p _
        rw [Function.comp_apply, at?_cons, hc, Option.bind_some]
  exact hfrom [] children rfl

end Gathering

section Enumeration

mutual

/-- The addresses of all nodes of a tree, each before those of the nodes below it. -/
def addresses : Node → List Address
  | .node _ children => [] :: addressesIn 0 children

/-- The addresses of some nodes, whose numbers start at `i`, and of all nodes below
them. -/
def addressesIn : Nat → List Node → List Address
  | _, [] => []
  | i, n :: rest => n.addresses.map (i :: ·) ++ addressesIn (i + 1) rest

end

theorem addressesIn_eq_gathered
    (i : Nat)
    (ns : List Node) :
    addressesIn i ns = gathered addresses i ns := by
  induction ns generalizing i with
  | nil =>
      rfl
  | cons n ns ih =>
      rw [addressesIn, gathered, ih]

theorem addresses_node
    (l : Label)
    (children : List Node) :
    (Node.node l children).addresses = [] :: gathered addresses 0 children := by
  rw [addresses, addressesIn_eq_gathered]

theorem mem_addresses_iff
    {n : Node} {p : Address} :
    p ∈ n.addresses ↔ ∃ m, n.at? p = some m := by
  induction n using children_induction generalizing p with
  | hnode l children ih =>
      rw [addresses_node, List.mem_cons, mem_gathered_iff]
      constructor
      · rintro (rfl | ⟨i, q, c, rfl, hc, hq⟩)
        · exact ⟨_, at?_nil _⟩
        · obtain ⟨m, hm⟩ := (ih c (List.mem_of_getElem? hc)).1 hq
          exact ⟨m, by rw [at?_cons, hc, Option.bind_some, hm]⟩
      · rintro ⟨m, hm⟩
        cases p with
        | nil =>
            exact .inl rfl
        | cons i q =>
            rw [at?_cons] at hm
            obtain ⟨c, hc, hq⟩ := Option.bind_eq_some_iff.1 hm
            exact .inr ⟨i, q, c, rfl, hc, (ih c (List.mem_of_getElem? hc)).2 ⟨m, hq⟩⟩

theorem pairwise_addresses
    (n : Node) :
    n.addresses.Pairwise Address.Before := by
  induction n using children_induction with
  | hnode l children ih =>
      rw [addresses_node]
      refine .cons ?_ (pairwise_gathered ih 0)
      intro p hp
      obtain ⟨i, q, c, rfl, -, -⟩ := mem_gathered_iff.1 hp
      exact Address.nil_before_cons i q

theorem nodup_addresses
    (n : Node) :
    n.addresses.Nodup :=
  n.pairwise_addresses.imp fun h => h.2

/-- The addresses of a tree are in the order of its nodes. -/
theorem map_at?_addresses
    (n : Node) :
    n.addresses.map n.at? = n.nodes.map some := by
  induction n using children_induction with
  | hnode l children ih =>
      rw [addresses_node, nodes, nodesIn_eq_flatMap, List.map_cons, List.map_cons,
        map_at?_gathered ih l]
      rfl

end Enumeration

end Node
end Tree
end HaskellTags
