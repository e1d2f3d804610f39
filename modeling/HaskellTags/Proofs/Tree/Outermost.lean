import HaskellTags.Proofs.Tree.Addresses

/-!
# Outermost nodes

The search for nodes of some types does not enter a node that it has found.  Its result is
described here by addresses: the search finds a node if and only if the node has one of the
types and no node above it, below the start, has one.  The nodes come in the order of the
tree and each of them once, even where equal nodes stand at different addresses.

It follows that no node found lies below another one, that whatever has one of the types
lies at or below exactly one of them, and that the first node found is the first of all in
the order of the tree.
-/

namespace HaskellTags
namespace Tree
namespace Node

section Matching

variable {types : List String} {l : Label} {children : List Node} {i : Nat} {c : Node}
  {p q : Address}

/-- A node of one of the types stands at an address below the start. -/
def Matches (types : List String) (n : Node) (p : Address) : Prop :=
  p ≠ [] ∧ ∃ m, n.at? p = some m ∧ m.type ∈ types

/-- It is a match, and no node above it is one. -/
def IsOutermost (types : List String) (n : Node) (p : Address) : Prop :=
  n.Matches types p ∧ ∀ q, q <+: p → q ≠ p → ¬ n.Matches types q

/-- Below a node there are its children and what is below them. -/
theorem matches_cons_iff
    (hc : children[i]? = some c) :
    (Node.node l children).Matches types (i :: p) ↔
      p = [] ∧ c.type ∈ types ∨ c.Matches types p := by
  have hat : (Node.node l children).at? (i :: p) = c.at? p := by
    rw [at?_cons, hc, Option.bind_some]
  rw [Matches, Matches, hat]
  cases p with
  | nil =>
      simp
  | cons j p =>
      simp

theorem exists_child_of_matches
    (h : (Node.node l children).Matches types (i :: p)) :
    ∃ c, children[i]? = some c := by
  obtain ⟨-, m, hm, -⟩ := h
  rw [at?_cons] at hm
  obtain ⟨c, hc, -⟩ := Option.bind_eq_some_iff.1 hm
  exact ⟨c, hc⟩

/-- A child of one of the types hides what is below it. -/
theorem isOutermost_cons_of_mem
    (hc : children[i]? = some c)
    (htype : c.type ∈ types) :
    (Node.node l children).IsOutermost types (i :: p) ↔ p = [] := by
  have hself : (Node.node l children).Matches types [i] :=
    (matches_cons_iff hc).2 (.inl ⟨rfl, htype⟩)
  constructor
  · rintro ⟨-, habove⟩
    by_contra hne
    have hstart : [i] <+: i :: p := List.cons_prefix_cons.2 ⟨rfl, List.nil_prefix⟩
    refine habove [i] hstart ?_ hself
    intro heq
    exact hne (List.cons.inj heq).2.symm
  · rintro rfl
    refine ⟨hself, ?_⟩
    intro q hq hne hmatch
    rcases List.prefix_cons_iff.1 hq with rfl | ⟨r, rfl, hr⟩
    · exact hmatch.1 rfl
    · rw [List.prefix_nil.1 hr] at hne
      exact hne rfl

/-- Any other child hides nothing. -/
theorem isOutermost_cons_of_not_mem
    (hc : children[i]? = some c)
    (htype : c.type ∉ types) :
    (Node.node l children).IsOutermost types (i :: p) ↔ c.IsOutermost types p := by
  have hbelow : ∀ q, (Node.node l children).Matches types (i :: q) ↔ c.Matches types q := by
    intro q
    simp [matches_cons_iff hc, htype]
  rw [IsOutermost, IsOutermost, hbelow]
  refine and_congr_right fun _ => ⟨?_, ?_⟩
  · intro habove q hq hne hmatch
    refine habove (i :: q) (List.cons_prefix_cons.2 ⟨rfl, hq⟩) ?_ ((hbelow q).2 hmatch)
    intro heq
    exact hne (List.cons.inj heq).2
  · intro habove q hq hne hmatch
    rcases List.prefix_cons_iff.1 hq with rfl | ⟨r, rfl, hr⟩
    · exact hmatch.1 rfl
    · refine habove r hr ?_ ((hbelow r).1 hmatch)
      rintro rfl
      exact hne rfl

theorem IsOutermost.eq_of_start
    {n : Node}
    (hp : n.IsOutermost types p)
    (hq : n.IsOutermost types q)
    (hpq : p <+: q) :
    p = q := by
  by_contra hne
  exact hq.2 p hpq hne hp.1

/-- Every match has an outermost one at its start. -/
theorem Matches.exists_isOutermost
    {n : Node}
    (h : n.Matches types p) :
    ∃ q, n.IsOutermost types q ∧ q <+: p := by
  induction n using children_induction generalizing p with
  | hnode l children ih =>
      cases p with
      | nil =>
          exact absurd rfl h.1
      | cons i p =>
          obtain ⟨c, hc⟩ := exists_child_of_matches h
          by_cases htype : c.type ∈ types
          · refine ⟨[i], ?_, List.cons_prefix_cons.2 ⟨rfl, List.nil_prefix⟩⟩
            exact (isOutermost_cons_of_mem hc htype).2 rfl
          · have hbelow : c.Matches types p := by
              rcases (matches_cons_iff hc).1 h with ⟨-, hself⟩ | hbelow
              · exact absurd hself htype
              · exact hbelow
            obtain ⟨q, hq, hstart⟩ := ih c (List.mem_of_getElem? hc) hbelow
            exact ⟨i :: q, (isOutermost_cons_of_not_mem hc htype).2 hq,
              List.cons_prefix_cons.2 ⟨rfl, hstart⟩⟩

/-- There is only one, since two starts of one address are one above the other. -/
theorem Matches.existsUnique_isOutermost
    {n : Node}
    (h : n.Matches types p) :
    ∃! q, n.IsOutermost types q ∧ q <+: p := by
  obtain ⟨q, hq, hstart⟩ := h.exists_isOutermost
  refine ⟨q, ⟨hq, hstart⟩, ?_⟩
  rintro r ⟨hr, hstart'⟩
  rcases List.prefix_or_prefix_of_prefix hstart' hstart with hrq | hqr
  · exact hr.eq_of_start hq hrq
  · exact (hq.eq_of_start hr hqr).symm

end Matching

section Searching

mutual

/-- The addresses of the outermost proper descendants of the given types, in order. -/
def outermostAddresses (types : List String) : Node → List Address
  | .node _ children => outermostAddressesIn types 0 children

/-- The same among some nodes, whose numbers start at `i`, and below them. -/
def outermostAddressesIn (types : List String) : Nat → List Node → List Address
  | _, [] => []
  | i, n :: rest =>
    (if types.contains n.type then [[]] else n.outermostAddresses types).map (i :: ·) ++
      outermostAddressesIn types (i + 1) rest

end

/-- The nodes that the search finds at a child. -/
def foundAt (types : List String) (c : Node) : List Node :=
  if types.contains c.type then [c] else c.outermost types

/-- Their addresses, from the child on. -/
def foundAddresses (types : List String) (c : Node) : List Address :=
  if types.contains c.type then [[]] else c.outermostAddresses types

variable (types : List String)

theorem outermost_node
    (l : Label)
    (children : List Node) :
    (Node.node l children).outermost types = children.flatMap (foundAt types) := by
  rw [outermost]
  induction children with
  | nil =>
      rfl
  | cons c rest ih =>
      rw [outermostIn, ih, List.flatMap_cons, foundAt]

theorem outermostAddressesIn_eq_gathered
    (i : Nat)
    (ns : List Node) :
    outermostAddressesIn types i ns = gathered (foundAddresses types) i ns := by
  induction ns generalizing i with
  | nil =>
      rfl
  | cons n ns ih =>
      rw [outermostAddressesIn, gathered, ih, foundAddresses]

theorem outermostAddresses_node
    (l : Label)
    (children : List Node) :
    (Node.node l children).outermostAddresses types =
      gathered (foundAddresses types) 0 children := by
  rw [outermostAddresses, outermostAddressesIn_eq_gathered]

theorem map_at?_outermostAddresses
    (n : Node) :
    (n.outermostAddresses types).map n.at? = (n.outermost types).map some := by
  induction n using children_induction with
  | hnode l children ih =>
      rw [outermostAddresses_node, outermost_node]
      apply map_at?_gathered
      intro c hc
      rw [foundAddresses, foundAt]
      split
      · rfl
      · exact ih c hc

theorem pairwise_outermostAddresses
    (n : Node) :
    (n.outermostAddresses types).Pairwise Address.Before := by
  induction n using children_induction with
  | hnode l children ih =>
      rw [outermostAddresses_node]
      apply pairwise_gathered
      intro c hc
      rw [foundAddresses]
      split
      · exact List.pairwise_singleton _ _
      · exact ih c hc

variable {types}

theorem mem_outermostAddresses_iff
    {n : Node} {p : Address} :
    p ∈ n.outermostAddresses types ↔ n.IsOutermost types p := by
  induction n using children_induction generalizing p with
  | hnode l children ih =>
      have hfound : ∀ {i : Nat} {c : Node} {q : Address}, children[i]? = some c →
          (q ∈ foundAddresses types c ↔ (Node.node l children).IsOutermost types (i :: q)) := by
        intro i c q hc
        by_cases htype : c.type ∈ types
        · simp [foundAddresses, htype, isOutermost_cons_of_mem hc htype]
        · simp [foundAddresses, htype, isOutermost_cons_of_not_mem hc htype,
            ih c (List.mem_of_getElem? hc)]
      rw [outermostAddresses_node, mem_gathered_iff]
      constructor
      · rintro ⟨i, q, c, rfl, hc, hq⟩
        exact (hfound hc).1 hq
      · intro h
        cases p with
        | nil =>
            exact absurd rfl h.1.1
        | cons i q =>
            obtain ⟨c, hc⟩ := exists_child_of_matches h.1
            exact ⟨i, q, c, rfl, hc, (hfound hc).2 h⟩

/-- The first outermost address comes before all other matches. -/
theorem inLexOrder_head_outermostAddresses
    {n : Node} {p q : Address} {rest : List Address}
    (hfirst : n.outermostAddresses types = p :: rest)
    (hq : n.Matches types q) :
    Lists.InLexOrder (· < ·) p q := by
  obtain ⟨r, hr, hstart⟩ := hq.exists_isOutermost
  have hmem : r ∈ p :: rest := by
    rw [← hfirst]
    exact mem_outermostAddresses_iff.2 hr
  have horder : (p :: rest).Pairwise Address.Before := by
    rw [← hfirst]
    exact pairwise_outermostAddresses types n
  apply Address.inLexOrder_of_start _ hstart
  rcases List.mem_cons.1 hmem with rfl | hlater
  · exact .inl (List.prefix_refl _)
  · exact ((List.pairwise_cons.1 horder).1 r hlater).1

/-- The first node of some types, if there is one, is the first match of all. -/
theorem firstOf_cases
    (types : List String)
    (n : Node) :
    n.firstOf types = none ∧ (∀ p, ¬ n.Matches types p) ∨
      ∃ p m, n.firstOf types = some m ∧ n.at? p = some m ∧ n.Matches types p ∧
        ∀ q, n.Matches types q → q ≠ p → p.Before q := by
  have hnodes := map_at?_outermostAddresses types n
  cases hfound : n.outermostAddresses types with
  | nil =>
      rw [hfound] at hnodes
      refine .inl ⟨?_, ?_⟩
      · rw [firstOf, List.map_eq_nil_iff.1 hnodes.symm]
        rfl
      · intro p hp
        obtain ⟨q, hq, -⟩ := hp.exists_isOutermost
        rw [← mem_outermostAddresses_iff, hfound] at hq
        cases hq
  | cons p rest =>
      have hp : n.IsOutermost types p := by
        rw [← mem_outermostAddresses_iff, hfound]
        exact List.mem_cons_self
      obtain ⟨-, m, hm, -⟩ := hp.1
      rw [hfound, List.map_cons, hm] at hnodes
      obtain ⟨first, others, hfirst, hsome, -⟩ := List.map_eq_cons_iff.1 hnodes.symm
      cases hsome
      refine .inr ⟨p, m, ?_, hm, hp.1, ?_⟩
      · rw [firstOf, hfirst]
        rfl
      · intro q hq hne
        exact ⟨inLexOrder_head_outermostAddresses hfound hq, hne.symm⟩

end Searching

/-- The search for nodes of some types finds exactly the matches without a match above
them, in the order of the tree and each address once.  No one of them is above another,
every match is at or below exactly one of them, and the first node of the types is the
first match of all. -/
theorem outermost_finds_topmost_matches
    (types : List String)
    (n : Node) :
    ∃ found : List Address,
      found.map n.at? = (n.outermost types).map some ∧
        found.Pairwise Address.Before ∧
        (∀ p, p ∈ found ↔
          n.Matches types p ∧ ∀ q, q <+: p → q ≠ p → ¬ n.Matches types q) ∧
        (∀ p ∈ found, ∀ q ∈ found, p <+: q → p = q) ∧
        (∀ p, n.Matches types p → ∃! q, q ∈ found ∧ q <+: p) ∧
        (n.firstOf types = none ∧ (∀ p, ¬ n.Matches types p) ∨
          ∃ p m, n.firstOf types = some m ∧ n.at? p = some m ∧ n.Matches types p ∧
            ∀ q, n.Matches types q → q ≠ p → p.Before q) := by
  refine ⟨n.outermostAddresses types, map_at?_outermostAddresses types n,
    pairwise_outermostAddresses types n, fun p => mem_outermostAddresses_iff, ?_, ?_,
    firstOf_cases types n⟩
  · intro p hp q hq hpq
    exact (mem_outermostAddresses_iff.1 hp).eq_of_start (mem_outermostAddresses_iff.1 hq) hpq
  · intro p hp
    simp only [mem_outermostAddresses_iff]
    exact hp.existsUnique_isOutermost

end Node
end Tree
end HaskellTags
