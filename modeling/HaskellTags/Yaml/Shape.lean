import HaskellTags.Yaml.Merge
import HaskellTags.Yaml.ScalarValue

/-!
# Shapes of YAML collections

What the nodes of a graph stand for: scalars, and collections of other nodes.
The collections are looked into one after the other in the order in which they
are met, so of two faults the one nearer to the root comes first, and of two that
are as near the one that is written first.
-/

namespace HaskellTags
namespace Yaml

open Decimal

/-- What a node stands for. -/
inductive Part
  /-- A scalar, and the node that it comes from; the word for what is no number
  is the same wherever it is written and comes from none. -/
  | scalar (value : Scalar) (origin : Option NodeId)
  /-- A collection. -/
  | collection (id : NodeId)
  deriving DecidableEq, Repr

/-- What a collection holds. -/
inductive Shape
  | list (items : List Part)
  | map (entries : List (Scalar × Part))
  | set (members : List Scalar)
  | pairs (entries : List (Part × Part))
  deriving DecidableEq, Repr

section Keys

/-- A scalar as a key. -/
structure MapKey where
  scalar : Scalar
  origin : Option NodeId
  deriving DecidableEq, Repr

/-- Whether two scalars are one key; what is no number is one key only with
itself. -/
def MapKey.isSame (a b : MapKey) : Bool :=
  a.scalar.sameKey b.scalar ||
    (a.scalar = .float .nan && b.scalar = .float .nan && a.origin = b.origin)

/-- Entries with one more; a key that is there keeps its place and its form. -/
def insertPart (key : MapKey) (part : Part) : List (MapKey × Part) → List (MapKey × Part)
  | [] => [(key, part)]
  | (k, p) :: rest =>
    if k.isSame key then (k, part) :: rest else (k, p) :: insertPart key part rest

end Keys

/-- The state of the making. -/
structure Making where
  graph : Graph
  /-- What the nodes stand for that were met. -/
  parts : List (NodeId × Part)
  /-- The collections that were met and not yet looked into. -/
  waiting : List NodeId
  /-- The collections that were looked into, the last first. -/
  shapes : List (NodeId × Shape)

/-- A step of the making. -/
abbrev Makes := StateT Making (Except Fault)

/-- Whether the nodes of a kind are collections. -/
def Kind.isCollection : Kind → Bool
  | .sequence | .mapping | .set | .orderedMap | .pairs => true
  | _ => false

namespace Making

/-- Give up. -/
def fail {α : Type} : Makes α :=
  throw .malformed

section Parts

/-- The scalar that a node stands for. -/
def scalarPart (g : Graph) (id : NodeId) : Except Fault Part := do
  let kind := g.kind id
  let text ← g.scalarText (g.size + 1) id
  match g.node id, kind with
  | .mapping _ _, .timestamp => throw (.scalar .timestampMapping)
  | _, _ =>
    let isWord := kind = .number && isNanWord text
    return .scalar (← scalarOf text kind) (if isWord then none else some id)

/-- What a node stands for; a collection is looked into later. -/
def part (id : NodeId) : Makes Part := do
  let s ← get
  match s.parts.lookup id with
  | some p => return p
  | none =>
    if (s.graph.kind id).isCollection then
      set { s with parts := (id, .collection id) :: s.parts, waiting := s.waiting ++ [id] }
      return .collection id
    else
      let p ← scalarPart s.graph id
      set { s with parts := (id, p) :: s.parts }
      return p

/-- What a node stands for as a key; a collection is none. -/
def keyOf (id : NodeId) : Makes MapKey := do
  match ← part id with
  | .scalar value origin => return ⟨value, origin⟩
  | .collection _ => fail

end Parts

section Collections

/-- The entries of a mapping, with all that is merged into it. -/
def mapEntries (id : NodeId) : Makes (List (MapKey × Part)) := do
  let s ← get
  let graph ← s.graph.mergeInto id
  set { s with graph }
  (graph.entries id).foldlM (fun read e => do
    let key ← keyOf e.1
    return insertPart key (← part e.2) read) []

/-- A mapping of one entry as a pair. -/
def pairOf (id : NodeId) : Makes (Part × Part) := do
  match (← get).graph.node id with
  | .mapping _ [(k, v)] => return (← part k, ← part v)
  | _ => fail

/-- What a collection holds. -/
def shapeOf (id : NodeId) : Makes Shape := do
  let g := (← get).graph
  match g.node id, g.kind id with
  | .sequence _ items, .sequence => return .list (← items.mapM part)
  | .sequence _ items, .orderedMap | .sequence _ items, .pairs =>
    return .pairs (← items.mapM pairOf)
  | .mapping _ _, .mapping =>
    return .map ((← mapEntries id).map fun e => (e.1.scalar, e.2))
  | .mapping _ _, .set => return .set ((← mapEntries id).map fun e => e.1.scalar)
  | _, _ => fail

/-- Look into the collections that wait, and those met on the way.  The first
argument bounds their number. -/
def lookInto : Nat → Makes Unit
  | 0 => return
  | bound + 1 => do
    match (← get).waiting with
    | [] => return
    | id :: rest =>
      modify fun s => { s with waiting := rest }
      let shape ← shapeOf id
      modify fun s => { s with shapes := (id, shape) :: s.shapes }
      lookInto bound

end Collections

end Making

/-- The collections of a graph below a node, the last met first, and what that
node stands for. -/
def Graph.shapes (g : Graph) (root : NodeId) : Except Fault (List (NodeId × Shape) × Part) := do
  let make : Makes Part := do
    let p ← Making.part root
    Making.lookInto (g.size + 1)
    return p
  let (p, s) ← make.run ⟨g, [], [], []⟩
  return (s.shapes, p)

end Yaml
end HaskellTags
