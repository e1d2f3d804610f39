import HaskellTags.Proofs.Tree.Addresses
import Mathlib.Data.List.Perm.Basic

/-!
# Counting errors

The errors of a tree are counted with a stack.  The node on top is visited and its children
take its place, so the stack grows and shrinks, and nodes of different depths lie on it side
by side.  What a turn keeps is the number of errors so far together with those that are still
in the trees on the stack; what it uses up is one of the nodes in these trees.

So the count ends after as many turns as there are nodes, and it ends with the number of
nodes at which the grammar failed, wherever they stand.  The order in which the nodes were
visited does not matter.
-/

namespace HaskellTags
namespace Tree
namespace Node

section Turns

/-- The order of some trees does not matter to the errors in them. -/
theorem countP_nodesIn_of_perm
    {ns ms : List Node}
    (h : ns.Perm ms) :
    (nodesIn ns).countP isError = (nodesIn ms).countP isError := by
  rw [nodesIn_eq_flatMap, nodesIn_eq_flatMap]
  exact (h.flatMap_right nodes).countP_eq isError

namespace Tally

/-- The errors so far and those that are still to be found. -/
def total (t : Tally) : Nat :=
  t.errors + (nodesIn t.stack).countP isError

/-- The tally after a number of turns, if the stack lasts. -/
def turns : Nat → Tally → Option Tally
  | 0, t => some t
  | k + 1, t => t.turn?.bind (turns k)

theorem total_of_turn?
    {t next : Tally}
    (h : t.turn? = some next) :
    next.total = t.total := by
  obtain ⟨errors, stack⟩ := t
  cases stack with
  | nil =>
      cases h
  | cons n rest =>
      cases h
      have hbelow := countP_nodesIn_of_perm (List.reverse_perm n.children)
      simp only [total, nodesIn_append, nodesIn, nodes_eq n, List.cons_append,
        List.countP_append, List.countP_cons, hbelow]
      split <;> omega

theorem exists_turn?
    {t : Tally} {k : Nat}
    (h : sizeIn t.stack = k + 1) :
    ∃ next, t.turn? = some next := by
  obtain ⟨errors, stack⟩ := t
  cases stack with
  | nil =>
      cases h
  | cons n rest =>
      exact ⟨_, rfl⟩

theorem stack_eq_nil_of_sizeIn_eq_zero
    {stack : List Node}
    (h : sizeIn stack = 0) :
    stack = [] := by
  cases stack with
  | nil =>
      rfl
  | cons n rest =>
      cases n with
      | node l below =>
          simp only [sizeIn, size] at h
          omega

/-- After as many turns as there are nodes the stack is empty and all errors are found. -/
theorem turns_sizeIn_stack
    (t : Tally) :
    t.turns (sizeIn t.stack) = some ⟨t.total, []⟩ := by
  induction hsize : sizeIn t.stack generalizing t with
  | zero =>
      have hstack : t.stack = [] := stack_eq_nil_of_sizeIn_eq_zero hsize
      obtain ⟨errors, stack⟩ := t
      cases hstack
      rfl
  | succ k ih =>
      obtain ⟨next, hnext⟩ := exists_turn? hsize
      have hleft : sizeIn next.stack = k := by
        have := sizeIn_stack_of_turn? hnext
        omega
      rw [turns, hnext, Option.bind_some, ih next hleft, total_of_turn? hnext]

theorem finish_of_turns
    {k : Nat} {t : Tally} {errors : Nat}
    (h : t.turns k = some ⟨errors, []⟩) :
    t.finish = errors := by
  induction k generalizing t with
  | zero =>
      cases h
      rw [finish]
      rfl
  | succ k ih =>
      obtain ⟨next, hnext, hrest⟩ := Option.bind_eq_some_iff.1 h
      rw [← ih hrest, finish]
      split
      · next hnone =>
        rw [hnext] at hnone
        cases hnone
      · next hsome =>
        rw [hnext] at hsome
        cases hsome
        rfl

end Tally

theorem turns_size
    (n : Node) :
    Tally.turns n.size ⟨0, [n]⟩ = some ⟨n.nodes.countP isError, []⟩ := by
  have h := Tally.turns_sizeIn_stack ⟨0, [n]⟩
  simpa only [Tally.total, sizeIn, nodesIn, List.append_nil, Nat.zero_add, Nat.add_zero]
    using h

theorem errorCount_eq_countP
    (n : Node) :
    n.errorCount = n.nodes.countP isError :=
  Tally.finish_of_turns n.turns_size

end Turns

section Failures

/-- The addresses of the nodes at which the grammar failed. -/
def errorAddresses (n : Node) : List Address :=
  n.addresses.filter fun p => (n.at? p).any isError

theorem mem_errorAddresses_iff
    {n : Node} {p : Address} :
    p ∈ n.errorAddresses ↔
      ∃ m, n.at? p = some m ∧ (m.type = errorType ∨ m.label.missing = true) := by
  rw [errorAddresses, List.mem_filter, mem_addresses_iff, Option.any_eq_true]
  constructor
  · rintro ⟨-, m, hm, herror⟩
    refine ⟨m, hm, ?_⟩
    simpa [isError] using herror
  · rintro ⟨m, hm, herror⟩
    refine ⟨⟨m, hm⟩, m, hm, ?_⟩
    simpa [isError] using herror

theorem length_errorAddresses
    (n : Node) :
    n.errorAddresses.length = n.nodes.countP isError := by
  calc n.errorAddresses.length
      = n.addresses.countP fun p => (n.at? p).any isError := by
        rw [errorAddresses, List.countP_eq_length_filter]
    _ = (n.addresses.map n.at?).countP fun m => m.any isError := by
        rw [List.countP_map]
        rfl
    _ = n.nodes.countP isError := by
        rw [map_at?_addresses, List.countP_map]
        rfl

end Failures

section Reordering

/-- The same tree with the children of some of its nodes in another order. -/
inductive Reordered : Node → Node → Prop
  | children {l : Label} {ns ms : List Node} :
      ns.Perm ms → Reordered (.node l ns) (.node l ms)
  | inChild {l : Label} {before after : List Node} {n m : Node} :
      Reordered n m → Reordered (.node l (before ++ n :: after)) (.node l (before ++ m :: after))
  | trans {n m k : Node} :
      Reordered n m → Reordered m k → Reordered n k

theorem Reordered.countP_eq
    {n m : Node}
    (h : Reordered n m) :
    m.nodes.countP isError = n.nodes.countP isError := by
  induction h with
  | @children l ns ms hperm =>
      rw [nodes, nodes, List.countP_cons, List.countP_cons, countP_nodesIn_of_perm hperm]
      -- Whether a node is an error is read off its label.
      rfl
  | @inChild l before after n m _ ih =>
      rw [nodes, nodes, List.countP_cons, List.countP_cons, nodesIn_append, nodesIn_append,
        nodesIn, nodesIn]
      simp only [List.countP_append, ih]
      rfl
  | trans _ _ ihn ihm =>
      exact ihm.trans ihn

end Reordering

theorem countP_nodesIn
    (ns : List Node) :
    (nodesIn ns).countP isError = ns.foldr (fun n sum => n.errorCount + sum) 0 := by
  induction ns with
  | nil =>
      rfl
  | cons n ns ih =>
      rw [nodesIn, List.countP_append, ih, List.foldr_cons, errorCount_eq_countP]

/-- The count of errors ends after one turn for each node of the tree, and its result is the
number of the addresses at which a node has the type of an error or is missing.  It is made
up of the node itself and its children, and stays the same when children change places
anywhere in the tree. -/
theorem errorCount_counts_failed_nodes
    (n : Node) :
    (∃ failed : List Address,
      failed.Nodup ∧
        (∀ p, p ∈ failed ↔
          ∃ m, n.at? p = some m ∧ (m.type = errorType ∨ m.label.missing = true)) ∧
        Tally.turns n.size ⟨0, [n]⟩ = some ⟨failed.length, []⟩ ∧
        n.errorCount = failed.length) ∧
      n.errorCount =
        (if n.type = errorType ∨ n.label.missing = true then 1 else 0) +
          n.children.foldr (fun c sum => c.errorCount + sum) 0 ∧
      ∀ m, Reordered n m → m.errorCount = n.errorCount := by
  refine ⟨⟨n.errorAddresses, ?_, fun p => mem_errorAddresses_iff, ?_, ?_⟩, ?_, ?_⟩
  · exact n.nodup_addresses.filter _
  · rw [length_errorAddresses]
    exact n.turns_size
  · rw [length_errorAddresses]
    exact n.errorCount_eq_countP
  · rw [errorCount_eq_countP, nodes_eq, List.countP_cons, countP_nodesIn, Nat.add_comm]
    simp [isError]
  · intro m h
    rw [errorCount_eq_countP, errorCount_eq_countP]
    exact h.countP_eq

end Node
end Tree
end HaskellTags
