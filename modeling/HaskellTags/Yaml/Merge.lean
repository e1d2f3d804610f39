import HaskellTags.Yaml.Graph
import HaskellTags.Yaml.Lexeme

/-!
# Merging of YAML mappings

A mapping may have other mappings merged into it under a key of its own.  Their
entries are put before its own, so that its own ones win, and of several mappings
those of the first win.  The mappings that are merged are changed as well: what is
merged into them is put there first.
-/

namespace HaskellTags
namespace Yaml
namespace Graph

/-- How many entries of the graph merge something. -/
def mergeCount (g : Graph) : Nat :=
  g.foldl (fun n node => n + node.entries.countP fun e => g.kind e.1 = .merge) 0

/-- The graph in which the keys of some entries that stand for a default value
are texts. -/
def withPlainKeys (g : Graph) (entries : List (NodeId × NodeId)) : Graph :=
  entries.foldl (fun g e =>
    if g.kind e.1 = .default then g.change (Node.withKind .text) e.1 else g) g

/-- The graph in which a mapping has all merged into it, from an entry on, after
what was gathered already.  Each merging entry is taken out before what it merges
is looked at, so that the number of such entries bounds the steps. -/
def mergeFrom : Nat → Graph → (id position : Nat) → (gathered : List (NodeId × NodeId)) →
    Except Fault Graph
  | 0, _, _, _, _ => malformed
  | bound + 1, g, id, position, gathered => do
    let entries := g.entries id
    match (entries.drop position).findIdx? fun e => g.kind e.1 = .merge with
    | none =>
      let g := g.withPlainKeys entries
      return if gathered.isEmpty then g
        else g.change (Node.withEntries (gathered ++ entries)) id
    | some ahead =>
      let place := position + ahead
      let source := (entries.getD place (0, 0)).2
      let g := g.change (Node.withEntries (entries.eraseIdx place)) id
      let (g, more) ← match g.node source with
        | .mapping _ _ => do
          let g ← mergeFrom bound g source 0 []
          pure (g, g.entries source)
        | .sequence _ items => do
          let (g, lists) ← items.foldlM (fun (state : Graph × List (List (NodeId × NodeId))) item =>
            match state.1.node item with
            | .mapping _ _ => do
              let g ← mergeFrom bound state.1 item 0 []
              pure (g, g.entries item :: state.2)
            | _ => malformed) (g, [])
          pure (g, lists.flatten)
        | .scalar _ _ => malformed
      mergeFrom bound g id place (gathered ++ more)

/-- The graph in which a mapping has all merged into it. -/
def mergeInto (g : Graph) (id : NodeId) : Except Fault Graph :=
  mergeFrom (g.mergeCount + 1) g id 0 []

end Graph
end Yaml
end HaskellTags
