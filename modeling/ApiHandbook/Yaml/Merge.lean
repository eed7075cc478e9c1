import ApiHandbook.Yaml.Node
import ApiHandbook.Yaml.Error

/-!
# Merging mappings

A merge key brings the entries of another mapping, or of several, into the mapping that holds it.
The mapping's own entries come last, so that they count; of several mappings the first counts most.
Merging changes the graph, also for those who see the same node through an alias.
-/
namespace ApiHandbook.Yaml

/-- A walk through the entries of a mapping: the place reached, and the entries brought in. -/
structure MergeWalk where
  graph : Graph
  index : Nat := 0
  merged : List (NodeId × NodeId) := []

namespace Graph

/-- The graph and the entries that the value of a merge key brings in. `settle` merges what a
mapping holds itself. -/
def broughtIn (settle : Graph → NodeId → Except YamlError Graph) (graph : Graph) (id : NodeId) :
    Except YamlError (Graph × List (NodeId × NodeId)) := do
  match graph.content id with
  | .mapping _ =>
    let graph ← settle graph id
    return (graph, graph.entries id)
  | .sequence items =>
    items.foldlM (fun (graph, entries) item => do
      if !graph.isMapping item then throw .malformed
      let graph ← settle graph item
      return (graph, graph.entries item ++ entries)) (graph, [])
  | .scalar _ => throw .malformed

end Graph

/-- One step through the entries of the mapping `id`. The entry of a merge key is removed before its
value is looked at; a default key becomes a string. -/
def MergeWalk.step (settle : Graph → NodeId → Except YamlError Graph) (id : NodeId)
    (walk : MergeWalk) : Except YamlError MergeWalk := do
  let entries := walk.graph.entries id
  match entries[walk.index]? with
  | none => return walk
  | some (key, value) =>
    match walk.graph.kind key with
    | .merge =>
      let graph := walk.graph.setEntries id (entries.eraseIdx walk.index)
      let (graph, merged) ← graph.broughtIn settle value
      return { walk with graph, merged := walk.merged ++ merged }
    | .default =>
      return { walk with graph := walk.graph.setKind key .string, index := walk.index + 1 }
    | _ => return { walk with index := walk.index + 1 }

namespace Graph

/-- Merges into a mapping, and first into the mappings that it takes entries from, `depth` of them
inside each other. There is a step for each entry: if a mapping is merged into itself, the inner
merge leaves nothing to do for the outer one. -/
def mergeWithin : Nat → Graph → NodeId → Except YamlError Graph
  | 0, graph, _ => .ok graph
  | depth + 1, graph, id => do
    let walk ← (graph.entries id).foldlM (fun walk _ => walk.step (mergeWithin depth) id)
      (⟨graph, 0, []⟩ : MergeWalk)
    return walk.graph.setEntries id (walk.merged ++ walk.graph.entries id)

/-- Merges into a mapping. Each merge inside another removes an entry, so there are at most as many
of them as entries. -/
def mergeInto (graph : Graph) (id : NodeId) : Except YamlError Graph :=
  graph.mergeWithin (graph.entryCount + 1) id

end Graph

end ApiHandbook.Yaml
