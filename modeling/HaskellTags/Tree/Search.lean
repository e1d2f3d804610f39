import HaskellTags.Tree.Basic

/-!
# Searching concrete trees

The outermost descendants of given types in source order, and the number of
nodes at which the grammar failed.  Trees of any depth are searched: the depth to
which a machine can follow a recursion belongs to the machine, and no limit on it
stands here.
-/

namespace HaskellTags
namespace Tree

namespace Node

mutual

/-- The outermost proper descendants of the given types, in order. -/
def outermost (types : List String) : Node → List Node
  | .node _ children => outermostIn types children

/-- The outermost nodes of the given types among some nodes and below them. -/
def outermostIn (types : List String) : List Node → List Node
  | [] => []
  | n :: rest =>
    (if types.contains n.type then [n] else n.outermost types) ++ outermostIn types rest

end

/-- The first of the outermost proper descendants of the given types. -/
def firstOf (types : List String) (n : Node) : Option Node :=
  (n.outermost types).head?

mutual

/-- The number of nodes of a tree. -/
def size : Node → Nat
  | .node _ children => sizeIn children + 1

/-- The number of nodes of some trees. -/
def sizeIn : List Node → Nat
  | [] => 0
  | n :: rest => n.size + sizeIn rest

end

/-- The type of a node at which the grammar failed. -/
def errorType : String := "ERROR"

/-- Whether the grammar failed at a node. -/
def isError (n : Node) : Bool :=
  n.type = errorType || n.label.missing

theorem sizeIn_append
    (ns ms : List Node) :
    sizeIn (ns ++ ms) = sizeIn ns + sizeIn ms := by
  induction ns with
  | nil => simp [sizeIn]
  | cons n ns ih => simp [sizeIn, ih, Nat.add_assoc]

theorem sizeIn_reverse
    (ns : List Node) :
    sizeIn ns.reverse = sizeIn ns := by
  induction ns with
  | nil => rfl
  | cons n ns ih => simp [sizeIn, sizeIn_append, ih, Nat.add_comm]

/-- A count of errors on its way: the errors so far, and the stack of the nodes that are
still to be visited, its top first. -/
structure Tally where
  errors : Nat
  stack : List Node

namespace Tally

/-- The node on top of the stack is visited, and its children take its place, the last
one on top. -/
def turn? : Tally → Option Tally
  | ⟨_, []⟩ => none
  | ⟨errors, n :: rest⟩ =>
    some ⟨if n.isError then errors + 1 else errors, n.children.reverse ++ rest⟩

/-- A turn takes one node off the stack for good. -/
theorem sizeIn_stack_of_turn?
    {t next : Tally}
    (h : t.turn? = some next) :
    sizeIn t.stack = sizeIn next.stack + 1 := by
  obtain ⟨errors, stack⟩ := t
  cases stack with
  | nil => cases h
  | cons n rest =>
    cases h
    cases n with
    | node l below =>
      simp only [sizeIn, size, children, sizeIn_append, sizeIn_reverse]
      omega

/-- The errors when the stack is empty. -/
def finish (t : Tally) : Nat :=
  match h : t.turn? with
  | none => t.errors
  | some next =>
    have : sizeIn t.stack = sizeIn next.stack + 1 := sizeIn_stack_of_turn? h
    finish next
termination_by sizeIn t.stack
decreasing_by omega

end Tally

/-- The number of nodes at which the grammar failed. -/
def errorCount (n : Node) : Nat :=
  Tally.finish ⟨0, [n]⟩

end Node

end Tree
end HaskellTags
