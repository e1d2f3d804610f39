import HaskellTags.Yaml.Graph
import HaskellTags.Yaml.Layout

/-!
# The document of a YAML text

The graph of nodes that the tokens of a text write.  A second use of an anchored
node is that node again.
-/

namespace HaskellTags
namespace Yaml

/-- The nodes of a document and the number of its root. -/
structure Document where
  graph : Graph
  root : NodeId

/-- The state of the reading of a document. -/
structure Reading where
  layout : Layout
  /-- What the handles of tags stand for. -/
  handles : List (String × String)
  anchors : List (String × NodeId)
  graph : Graph

/-- What may stand before a node. -/
structure Properties where
  anchor : Option String
  tag : Option String

/-- A reader of tokens. -/
abbrev Reads := StateT Reading (Except Fault)

namespace Properties

/-- The kind of a collection. -/
def collectionKind (p : Properties) (usual : Kind) : Kind :=
  match p.tag with
  | none => usual
  | some tag => if tag = "!" then usual else .ofTag tag

/-- The kind of a scalar; without a tag of a kind, the form of a plain one
tells it. -/
def scalarKind (p : Properties) (plain : Bool) (text : String) : Kind :=
  match p.tag with
  | none => if plain then .ofForm text else .text
  | some tag => if tag = "!" then .ofForm text else .ofTag tag

end Properties

namespace Reading

/-- The state at the start of a text. -/
def start (text : List Char) : Reading where
  layout := .start text
  handles := []
  anchors := []
  graph := #[]

section Tokens

/-- The next token. -/
def look : Reads Token := do
  let s ← get
  let (t, layout) ← s.layout.next
  set { s with layout }
  return t

/-- Pass over the next token. -/
def pass : Reads Unit :=
  modify fun s => { s with layout := s.layout.take }

/-- Give up. -/
def fail {α : Type} : Reads α :=
  throw .malformed

/-- Pass over a token that has to be next. -/
def expect (t : Token) : Reads Unit := do
  if (← look) = t then pass else fail

/-- Pass over a token if it is next. -/
def accept (t : Token) : Reads Bool := do
  if (← look) = t then
    pass
    return true
  else return false

end Tokens

section Properties

/-- The anchor before a node. -/
def anchor? : Reads (Option String) := do
  match ← look with
  | .anchor name =>
    pass
    return some name
  | _ => return none

/-- The handle and the rest of the tag before a node. -/
def tag? : Reads (Option (Option String × String)) := do
  match ← look with
  | .tag handle suffix =>
    pass
    return some (handle, suffix)
  | _ => return none

/-- A tag, its handle replaced by what that stands for. -/
def fullTag (tag : Option String × String) : Reads String := do
  match tag with
  | (none, suffix) => return suffix
  | (some handle, suffix) =>
    match (← get).handles.lookup handle with
    | some stands => return stands ++ suffix
    | none => fail

/-- The anchor and the tag before a node, in either order. -/
def properties : Reads Properties := do
  let (anchor, tag) ← match ← anchor? with
    | some name => pure (some name, ← tag?)
    | none =>
      match ← tag? with
      | none => pure (none, none)
      | some tag => pure (← anchor?, some tag)
  return ⟨anchor, ← tag.mapM fullTag⟩

/-- The node that an anchor names. -/
def referred (name : String) : Reads NodeId := do
  match (← get).anchors.lookup name with
  | none => fail
  | some id => return id

/-- Note which node an anchor names. -/
def define (anchor : Option String) (id : NodeId) : Reads Unit :=
  match anchor with
  | none => return
  | some name => modify fun s => { s with anchors := (name, id) :: s.anchors }

/-- Check that an anchor names no other node. -/
def checkAnchor (anchor : Option String) : Reads Unit := do
  let anchors := (← get).anchors
  if anchor.any fun name => (anchors.lookup name).isSome then fail

end Properties

section Numbering

/-- Add a node. -/
def add (n : Node) : Reads NodeId :=
  modifyGet fun s => (s.graph.size, { s with graph := s.graph.push n })

/-- Replace a node by another. -/
def replace (id : NodeId) (n : Node) : Reads Unit :=
  modify fun s => { s with graph := s.graph.change (fun _ => n) id }

/-- Add a node of which nothing is written. -/
def addEmpty : Reads NodeId := add (.scalar .null "")

end Numbering

end Reading

namespace Properties

open Reading

/-- A collection with these properties: it has its number and its anchor before
its parts are read. -/
def collection {α : Type} (p : Properties) (made : List α → Node) (parts : Reads (List α)) :
    Reads NodeId := do
  let id ← add (made [])
  define p.anchor id
  replace id (made (← parts))
  return id

/-- A sequence with these properties. -/
def sequence (p : Properties) (items : Reads (List NodeId)) : Reads NodeId :=
  p.collection (.sequence (p.collectionKind .sequence)) items

/-- A mapping with these properties. -/
def mapping (p : Properties) (entries : Reads (List (NodeId × NodeId))) : Reads NodeId :=
  p.collection (.mapping (p.collectionKind .mapping)) entries

/-- A scalar with these properties. -/
def scalar (p : Properties) (plain : Bool) (text : String) : Reads NodeId := do
  let id ← add (.scalar (p.scalarKind plain text) text)
  define p.anchor id
  return id

/-- The empty scalar that properties alone write. -/
def bare (p : Properties) : Reads NodeId :=
  if p.anchor.isSome || p.tag.isSome then p.scalar true "" else fail

end Properties

namespace Reading

section Nodes

mutual

/-- A node.  A block collection is read only where one may stand, and a sequence
that is not indented only below a key. -/
def node : Nat → (block unindented : Bool) → Reads NodeId
  | 0, _, _ => fail
  | bound + 1, block, unindented => do
    if let .reference name := ← look then
      pass
      return ← referred name
    let p ← properties
    let t ← look
    checkAnchor p.anchor
    match t, block, unindented with
    | .blockEntry, _, true => p.sequence (unindentedItems bound)
    | .scalar text plain, _, _ =>
      pass
      p.scalar plain text
    | .flowSequenceStart, _, _ =>
      pass
      p.sequence (flowItems bound true)
    | .flowMappingStart, _, _ =>
      pass
      p.mapping (flowEntries bound true)
    | .blockSequenceStart, true, _ =>
      pass
      p.sequence (blockItems bound)
    | .blockMappingStart, true, _ =>
      pass
      p.mapping (blockEntries bound)
    | _, _, _ => p.bare

/-- A node, or an empty one before some tokens. -/
def nodeUnless : Nat → List Token → (block unindented : Bool) → Reads NodeId
  | 0, _, _, _ => fail
  | bound + 1, stops, block, unindented => do
    if stops.contains (← look) then addEmpty else node bound block unindented

/-- The items of a block sequence. -/
def blockItems : Nat → Reads (List NodeId)
  | 0 => fail
  | bound + 1 => do
    if ← accept .blockEntry then
      let item ← nodeUnless bound [.blockEntry, .blockEnd] true false
      return item :: (← blockItems bound)
    else
      expect .blockEnd
      return []

/-- The items of a sequence that is not indented. -/
def unindentedItems : Nat → Reads (List NodeId)
  | 0 => fail
  | bound + 1 => do
    if ← accept .blockEntry then
      let item ← nodeUnless bound [.blockEntry, .key, .value, .blockEnd] true false
      return item :: (← unindentedItems bound)
    else return []

/-- The entries of a block mapping. -/
def blockEntries : Nat → Reads (List (NodeId × NodeId))
  | 0 => fail
  | bound + 1 => do
    if ← accept .key then
      let key ← nodeUnless bound [.key, .value, .blockEnd] true true
      let value ← if ← accept .value then nodeUnless bound [.key, .value, .blockEnd] true true
        else addEmpty
      return (key, value) :: (← blockEntries bound)
    else
      expect .blockEnd
      return []

/-- The items of a flow sequence; one may be a mapping of one entry. -/
def flowItems : Nat → (first : Bool) → Reads (List NodeId)
  | 0, _ => fail
  | bound + 1, first => do
    if ← accept .flowSequenceEnd then return []
    unless first do expect .flowEntry
    if ← accept .key then
      let key ← nodeUnless bound [.value, .flowEntry, .flowSequenceEnd] false false
      let value ← if ← accept .value then
          nodeUnless bound [.flowEntry, .flowSequenceEnd] false false
        else addEmpty
      let item ← add (.mapping .mapping [(key, value)])
      return item :: (← flowItems bound false)
    else if ← accept .flowSequenceEnd then return []
    else
      let item ← node bound false false
      return item :: (← flowItems bound false)

/-- The entries of a flow mapping. -/
def flowEntries : Nat → (first : Bool) → Reads (List (NodeId × NodeId))
  | 0, _ => fail
  | bound + 1, first => do
    if ← accept .flowMappingEnd then return []
    unless first do expect .flowEntry
    if ← accept .key then
      let key ← nodeUnless bound [.value, .flowEntry, .flowMappingEnd] false false
      let value ← if ← accept .value then
          nodeUnless bound [.flowEntry, .flowMappingEnd] false false
        else addEmpty
      return (key, value) :: (← flowEntries bound false)
    else if ← accept .flowMappingEnd then return []
    else
      let key ← node bound false false
      let value ← addEmpty
      return (key, value) :: (← flowEntries bound false)

end

end Nodes

section Documents

/-- What handles stand for where a document does not say. -/
def usualHandles : List (String × String) := [("!", "!"), ("!!", coreTag)]

/-- The directives before a document; a version or a handle is given once. -/
def directives : Nat → (versioned : Bool) → Reads Unit
  | 0, _ => fail
  | bound + 1, versioned => do
    match ← look with
    | .directive (.version major) =>
      pass
      if versioned || major ≠ 1 then fail else directives bound true
    | .directive (.handle name stands) =>
      pass
      if ((← get).handles.lookup name).isSome then fail
      modify fun s => { s with handles := s.handles ++ [(name, stands)] }
      directives bound versioned
    | .directive .other =>
      pass
      directives bound versioned
    | _ => modify fun s => { s with handles := s.handles ++ usualHandles }

/-- The start of a document that is marked. -/
def documentStart (bound : Nat) : Reads Unit := do
  modify fun s => { s with handles := [] }
  directives bound false
  expect .documentStart

/-- Whether a token ends a document that has no content. -/
def endsDocument : Token → Bool
  | .directive _ => true
  | .documentStart => true
  | .documentEnd => true
  | .streamEnd => true
  | _ => false

/-- The end of the text after a document; a second document is refused, once its
start was read. -/
def finish : Nat → Reads Unit
  | 0 => fail
  | bound + 1 => do
    if ← accept .documentEnd then finish bound
    else if (← look) = .streamEnd then pass
    else
      documentStart bound
      fail

/-- The root of the only document of a text, if there is one. -/
def root? (bound : Nat) : Reads (Option NodeId) := do
  match ← look with
  | .streamEnd => return none
  | .directive _ | .documentStart =>
    documentStart bound
    let root ← if endsDocument (← look) then addEmpty else node bound true false
    finish bound
    return some root
  | _ =>
    modify fun s => { s with handles := usualHandles }
    let root ← node bound true false
    finish bound
    return some root

end Documents
end Reading

/-- The document that a text writes, if it has one. -/
def Document.parse? (text : List Char) : Except Fault (Option Document) := do
  if !text.all isAllowed then malformed
  let bound := 16 * text.length + 16
  let (root?, s) ← (Reading.root? bound).run (.start text)
  return root?.map fun root => ⟨s.graph, root⟩

end Yaml
end HaskellTags
