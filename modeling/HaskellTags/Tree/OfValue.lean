import HaskellTags.Tree.Basic
import HaskellTags.Value.Basic

/-!
# Concrete trees as values

A concrete tree comes from outside as a nested list: each node is a list of its
type, its flags, its first octet and the one past its last, its first row and
column, its last row and column, its field and its children.  The flags hold
`n` for a named node and `m` for a missing one.
-/

namespace HaskellTags
namespace Tree

/-- What a node tells about itself, from the first nine items of its list. -/
def Label.ofItems? : List Value → Option Label
  | [type, flags, startByte, endByte, startRow, startColumn, endRow, endColumn, field] => do
    let flags := (← flags.text?).toList
    return {
      type := ← type.text?
      named := flags.contains 'n'
      missing := flags.contains 'm'
      startByte := (← startByte.int?).toNat
      endByte := (← endByte.int?).toNat
      start := ⟨← startRow.int?, ← startColumn.int?⟩
      stop := ⟨← endRow.int?, ← endColumn.int?⟩
      field := field.text? }
  | _ => none

mutual

/-- The node that a value writes. -/
def Node.ofValue? : Value → Option Node
  | .list items => Node.ofItems? [] items
  | _ => none

/-- The node that the items of a list write, after those read, the last one
first. -/
def Node.ofItems? (read : List Value) : List Value → Option Node
  | [] => none
  | [.list children] => do
    let label ← Label.ofItems? read.reverse
    return .node label (← Node.allOfValues? children)
  | item :: rest => Node.ofItems? (item :: read) rest

/-- The nodes that values write. -/
def Node.allOfValues? : List Value → Option (List Node)
  | [] => some []
  | v :: rest => do
    let n ← Node.ofValue? v
    return n :: (← Node.allOfValues? rest)

end

end Tree
end HaskellTags
