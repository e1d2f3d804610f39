import HaskellTags.Text.Utf8

/-!
# Concrete trees

The tree that a grammar gives for a source: every node has a type, its place in
the source as octets and as rows and columns, the field it fills in its parent,
and its children.  Rows and octets need not agree with each other or with the
source.
-/

namespace HaskellTags
namespace Tree

open Text

/-- A row and a column, counted from zero. -/
structure Point where
  row : Int
  column : Int
  deriving DecidableEq, Repr

/-- What a node tells about itself. -/
structure Label where
  /-- The grammar's name for the node. -/
  type : String
  named : Bool
  /-- The grammar missed this node and went on as if it were there. -/
  missing : Bool
  startByte : Nat
  endByte : Nat
  start : Point
  stop : Point
  /-- The field of its parent that the node fills. -/
  field : Option String
  deriving DecidableEq, Repr

/-- A node of a concrete tree. -/
inductive Node
  | node (label : Label) (children : List Node)

namespace Node

/-- What a node tells about itself. -/
def label : Node → Label
  | .node l _ => l

/-- The children of a node, in order. -/
def children : Node → List Node
  | .node _ cs => cs

/-- The grammar's name for a node. -/
def type (n : Node) : String := n.label.type

/-- The children that have a name in the grammar. -/
def namedChildren (n : Node) : List Node :=
  n.children.filter fun c => c.label.named

/-- The first child that fills a field. -/
def childByField (field : String) (n : Node) : Option Node :=
  n.children.find? fun c => c.label.field = some field

/-- Whether a child has a type. -/
def hasToken (token : String) (n : Node) : Bool :=
  n.children.any fun c => c.type = token

/-- The text of a node. -/
def text (source : Octets) (n : Node) : String :=
  decode (slice source n.label.startByte n.label.endByte)

end Node

/-- The line on which a node starts, counted from one. -/
def Node.line (n : Node) : Int := n.label.start.row + 1

end Tree
end HaskellTags
