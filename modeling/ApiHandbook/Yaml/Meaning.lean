import ApiHandbook.Yaml.Merge
import ApiHandbook.Yaml.Value

/-!
# What the nodes of a document stand for

A scalar's value is found when its node is first met. A collection is known at once and looked into
later: the collections are taken in the order in which they are met, so the nodes of a document are
met level by level.
-/
namespace ApiHandbook.Yaml

open Text (CodePoint)

inductive Meaning where
  | scalar (value : Value)
  | collection

/-- The nodes met so far. -/
structure Exploration where
  graph : Graph
  meanings : Array (Option Meaning)
  /-- The collections in the order in which they were met. -/
  collections : Array NodeId := #[]

namespace Graph

/-- The text of a node where a scalar is wanted. The default entry of a mapping stands for it, as
long as mappings do not go deeper than `depth`. -/
def scalarText (graph : Graph) : Nat → NodeId → Except YamlError (List CodePoint)
  | 0, _ => .error .malformed
  | depth + 1, id =>
    match graph.content id with
    | .scalar text => .ok text
    | .mapping entries =>
      match entries.find? fun (key, _) => graph.kind key = .default with
      | some (_, value) => graph.scalarText depth value
      | none => .error .malformed
    | .sequence _ => .error .malformed

/-- The value of a node of a scalar kind. A timestamp is read off the node itself. -/
def scalarMeaning (graph : Graph) (id : NodeId) : Except YamlError Value := do
  let text ← graph.scalarText (graph.size + 1) id
  if graph.kind id = .timestamp && graph.isMapping id then throw .timestampOfMapping
  scalarValue (graph.kind id) text

end Graph

namespace Exploration

def ofGraph (graph : Graph) : Exploration where
  graph := graph
  meanings := Array.replicate graph.size none

def meaning? (exploration : Exploration) (id : NodeId) : Option Meaning :=
  (exploration.meanings[id]?).join

def setMeaning (exploration : Exploration) (id : NodeId) (meaning : Meaning) : Exploration :=
  { exploration with meanings := exploration.meanings.setIfInBounds id (some meaning) }

/-- Meets a node. -/
def meet (exploration : Exploration) (id : NodeId) : Except YamlError Exploration := do
  if (exploration.meaning? id).isSome then return exploration
  match exploration.graph.kind id with
  | .list | .mapping | .set | .pairs =>
    let exploration := exploration.setMeaning id .collection
    return { exploration with collections := exploration.collections.push id }
  | .merge | .default | .unknown => throw .malformed
  | _ => return exploration.setMeaning id (.scalar (← exploration.graph.scalarMeaning id))

/-- Meets the key and the value of an entry. A collection can be no key. -/
def meetEntry (exploration : Exploration) (entry : NodeId × NodeId) :
    Except YamlError Exploration := do
  let exploration ← exploration.meet entry.1
  match exploration.meaning? entry.1 with
  | some (.scalar _) => exploration.meet entry.2
  | _ => throw .malformed

/-- Meets the key and the value of a pair: a mapping of a single entry, as it is written. -/
def meetPair (exploration : Exploration) (id : NodeId) : Except YamlError Exploration := do
  match exploration.graph.content id with
  | .mapping [(key, value)] => (← exploration.meet key).meet value
  | _ => throw .malformed

/-- Looks into a collection. -/
def lookInto (exploration : Exploration) (id : NodeId) : Except YamlError Exploration := do
  match exploration.graph.kind id, exploration.graph.content id with
  | .list, .sequence items => items.foldlM meet exploration
  | .pairs, .sequence items => items.foldlM meetPair exploration
  | .mapping, .mapping _ | .set, .mapping _ =>
    let graph ← exploration.graph.mergeInto id
    (graph.entries id).foldlM meetEntry { exploration with graph }
  | _, _ => throw .malformed

/-- All nodes that the root leads to. Each node is a collection at most once, so there is a turn for
each of them. -/
def ofDocument (document : Document) : Except YamlError Exploration := do
  let start ← (ofGraph document.graph).meet document.root
  (List.range document.graph.size).foldlM (fun exploration turn =>
    match exploration.collections[turn]? with
    | some id => exploration.lookInto id
    | none => pure exploration) start

/-- The keys of entries, each of them once. A node is one key with itself. -/
def distinctKeys (keys : List (NodeId × Value)) : List Value :=
  (keys.foldl (fun (seen : List (NodeId × Value)) (id, value) =>
    if seen.any fun (other, same) => other = id || same.isSameKey value then seen
    else (id, value) :: seen) []).reverse.map (·.2)

/-- A collection of which nothing is seen. -/
def emptyValue : Kind → Value
  | .mapping => .mapping []
  | .set => .set []
  | _ => .list []

/-- The value of a node. A document may hold itself, so collections are seen as empty below
`depth`. -/
def value (exploration : Exploration) : Nat → NodeId → Value
  | 0, id =>
    match exploration.meaning? id with
    | some (.scalar value) => value
    | _ => emptyValue (exploration.graph.kind id)
  | depth + 1, id =>
    match exploration.meaning? id, exploration.graph.kind id, exploration.graph.content id with
    | some (.scalar value), _, _ => value
    | _, .mapping, .mapping entries =>
      .mapping (entries.map fun (key, entry) =>
        (exploration.value depth key, exploration.value depth entry))
    | _, .set, .mapping entries =>
      .set (distinctKeys (entries.map fun (key, _) => (key, exploration.value depth key)))
    | _, .list, .sequence items => .list (items.map (exploration.value depth))
    | _, .pairs, .sequence items =>
      .list (items.map fun item => .list ((exploration.graph.entries item).flatMap
        fun (key, entry) => [exploration.value depth key, exploration.value depth entry]))
    | _, kind, _ => emptyValue kind

end Exploration

end ApiHandbook.Yaml
