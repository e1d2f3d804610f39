import HaskellTags.Yaml.Fault
import HaskellTags.Yaml.Kind

/-!
# Graphs of YAML nodes

The nodes of a document, numbered.  A collection lists the numbers of its parts,
so that an anchored node may be part of several collections, and of itself.
-/

namespace HaskellTags
namespace Yaml

/-- The number of a node. -/
abbrev NodeId := Nat

/-- A node. -/
inductive Node
  | scalar (kind : Kind) (text : String)
  | sequence (kind : Kind) (items : List NodeId)
  | mapping (kind : Kind) (entries : List (NodeId × NodeId))
  deriving DecidableEq, Repr

namespace Node

/-- The kind of a node. -/
def kind : Node → Kind
  | .scalar kind _ => kind
  | .sequence kind _ => kind
  | .mapping kind _ => kind

/-- A node as one of another kind. -/
def withKind (kind : Kind) : Node → Node
  | .scalar _ text => .scalar kind text
  | .sequence _ items => .sequence kind items
  | .mapping _ entries => .mapping kind entries

/-- The entries of a mapping; another node has none. -/
def entries : Node → List (NodeId × NodeId)
  | .mapping _ entries => entries
  | _ => []

/-- A mapping with other entries. -/
def withEntries (entries : List (NodeId × NodeId)) : Node → Node
  | .mapping kind _ => .mapping kind entries
  | n => n

end Node

/-- Nodes by their numbers. -/
abbrev Graph := Array Node

namespace Graph

/-- The node with a number; without one, an empty scalar. -/
def node (g : Graph) (id : NodeId) : Node :=
  g.getD id (.scalar .null "")

/-- The kind of the node with a number. -/
def kind (g : Graph) (id : NodeId) : Kind :=
  (g.node id).kind

/-- The entries of the node with a number. -/
def entries (g : Graph) (id : NodeId) : List (NodeId × NodeId) :=
  (g.node id).entries

/-- A graph with another node in place of one. -/
def change (f : Node → Node) (id : NodeId) (g : Graph) : Graph :=
  g.modify id f

/-- The text of a node as a scalar: of a mapping, that of its default value.  The
first argument bounds how many mappings are inside each other; more of them than
there are nodes come back to where they started. -/
def scalarText (g : Graph) : Nat → NodeId → Except Fault String
  | 0, _ => .error (.scalar .endless)
  | bound + 1, id =>
    match g.node id with
    | .scalar _ text => .ok text
    | .sequence _ _ => .error .malformed
    | .mapping _ entries =>
      match entries.find? fun e => g.kind e.1 = .default with
      | some e => scalarText g bound e.2
      | none => .error .malformed

end Graph
end Yaml
end HaskellTags
