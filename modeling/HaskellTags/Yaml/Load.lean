import HaskellTags.Yaml.Document
import HaskellTags.Yaml.Shape

/-!
# The value of a YAML text

A value is a tree, and a document a graph: a collection is written out wherever
it is used, and cut off where it would come again inside itself.
-/

namespace HaskellTags
namespace Yaml

section Trees

/-- The values of collections as far as they are known. -/
abbrev Known := List (NodeId × Value)

/-- The value of a part if it is known. -/
def Part.value? (known : Known) : Part → Option Value
  | .scalar value _ => some (.scalar value)
  | .collection id => known.lookup id

/-- The value of a collection, given those of its parts. -/
def Shape.valueBy {m : Type → Type} [Monad m] (value : Part → m Value) : Shape → m Value
  | .list items => return .list (← items.mapM value)
  | .map entries => return .map (← entries.mapM fun e => do return (e.1, ← value e.2))
  | .set members => return .set members
  | .pairs entries =>
    return .list (← entries.mapM fun e => do return .pair (← value e.1) (← value e.2))

/-- The values that are known once some collections were looked at, the first
one first. -/
def learn (known : Known) : List (NodeId × Shape) → Known
  | [] => known
  | (id, shape) :: rest =>
    match known.lookup id, shape.valueBy (Part.value? known) with
    | none, some v => learn ((id, v) :: known) rest
    | _, _ => learn known rest

/-- The values of the collections that do not come again inside themselves or
inside their parts, after at most so many rounds. -/
def trees (shapes : List (NodeId × Shape)) : Nat → Known → Known
  | 0, known => known
  | rounds + 1, known =>
    let more := learn known shapes
    if more.length = known.length then known else trees shapes rounds more

end Trees

section Cycles

/-- Whether a collection is a mapping. -/
def isMap (shapes : List (NodeId × Shape)) (id : NodeId) : Bool :=
  match shapes.lookup id with
  | some (.map _) => true
  | _ => false

/-- The value of a part inside some collections.  The first argument bounds how
many collections are inside each other. -/
def valueInside (shapes : List (NodeId × Shape)) (known : Known) :
    Nat → (around : List NodeId) → Part → Value
  | _, _, .scalar value _ => .scalar value
  | 0, _, .collection id => .cycle (isMap shapes id)
  | bound + 1, around, .collection id =>
    match known.lookup id, shapes.lookup id with
    | some v, _ => v
    | none, none => .null
    | none, some shape =>
      if around.contains id then .cycle (isMap shapes id)
      else shape.valueBy (m := Id) (valueInside shapes known bound (id :: around))

end Cycles

/-- The value of what a document stands for.  The values in a mapping at its root
are those of its entries by themselves: one that comes back to the root shows the
mapping once more. -/
def valueOf (shapes : List (NodeId × Shape)) (root : Part) : Value :=
  let known := trees shapes shapes.length []
  let value := valueInside shapes known (shapes.length + 1) []
  match root with
  | .scalar v _ => .scalar v
  | .collection id =>
    match shapes.lookup id with
    | some (.map entries) => .map (entries.map fun e => (e.1, value e.2))
    | _ => value root

/-- The value of a text; one without a document has the value of nothing. -/
def load (text : String) : Except Fault Value := do
  match ← Document.parse? text.toList with
  | none => return .null
  | some d =>
    let (shapes, root) ← d.graph.shapes d.root
    return valueOf shapes root

end Yaml
end HaskellTags
