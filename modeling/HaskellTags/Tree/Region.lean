import HaskellTags.Tree.Grammar

/-!
# Regions without comments

The text of a region of the source with a space in place of each comment.
-/

namespace HaskellTags
namespace Tree

open Text

/-- The octets from `cursor` to `stop` outside the comments, one segment before
each comment and one after the last. -/
def segments (source : Octets) (stop : Nat) : Nat → List Node → List Octets
  | cursor, [] => [slice source cursor stop]
  | cursor, comment :: rest =>
    slice source cursor comment.label.startByte ::
      segments source stop comment.label.endByte rest

/-- Whether a node has a part in the region from `start` to `stop`. -/
def Node.touches (start stop : Nat) (n : Node) : Bool :=
  !(n.label.endByte ≤ start || stop ≤ n.label.startByte)

/-- The comments below a node that have a part in a region. -/
def Node.commentsIn (start stop : Nat) (n : Node) : List Node :=
  (n.outermost Grammar.comments).filter (touches start stop)

/-- The octet of a space. -/
def space : UInt8 := 0x20

/-- The text of a region of a node with a space for each comment. -/
def Node.regionText (source : Octets) (start stop : Nat) (n : Node) : String :=
  decode (List.intercalate [space] (segments source stop start (n.commentsIn start stop)))

/-- The text of a node with a space for each comment. -/
def Node.textWithoutComments (source : Octets) (n : Node) : String :=
  n.regionText source n.label.startByte n.label.endByte

end Tree
end HaskellTags
