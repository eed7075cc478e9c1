import ApiHandbook.Text.CodePoint
import ApiHandbook.Yaml.Kind

/-!
# Nodes of a YAML document

Scalars, sequences and mappings in a graph: a node stands in several places if aliases name it,
and may stand inside itself.
-/
namespace ApiHandbook.Yaml

open Text (CodePoint)

/-- The place of a node in its graph. -/
abbrev NodeId := Nat

inductive Content where
  | scalar (text : List CodePoint)
  | sequence (items : List NodeId)
  | mapping (entries : List (NodeId × NodeId))
  deriving DecidableEq, Repr

structure Node where
  kind : Kind
  content : Content
  deriving DecidableEq, Repr

/-- What stands where nothing is written. -/
def Node.empty : Node := ⟨.null, .scalar []⟩

structure Graph where
  nodes : Array Node := #[]
  deriving Repr

namespace Graph

def size (graph : Graph) : Nat := graph.nodes.size

/-- The graph with a further node, which gets the next place. -/
def add (graph : Graph) (node : Node) : NodeId × Graph :=
  (graph.nodes.size, ⟨graph.nodes.push node⟩)

def node (graph : Graph) (id : NodeId) : Node := graph.nodes[id]?.getD .empty

def setContent (graph : Graph) (id : NodeId) (content : Content) : Graph :=
  ⟨graph.nodes.modify id ({ · with content })⟩

def setKind (graph : Graph) (id : NodeId) (kind : Kind) : Graph :=
  ⟨graph.nodes.modify id ({ · with kind })⟩

def kind (graph : Graph) (id : NodeId) : Kind := (graph.node id).kind

def content (graph : Graph) (id : NodeId) : Content := (graph.node id).content

/-- The entries of a mapping; other nodes have none. -/
def entries (graph : Graph) (id : NodeId) : List (NodeId × NodeId) :=
  match graph.content id with
  | .mapping entries => entries
  | _ => []

def setEntries (graph : Graph) (id : NodeId) (entries : List (NodeId × NodeId)) : Graph :=
  graph.setContent id (.mapping entries)

def isMapping (graph : Graph) (id : NodeId) : Bool :=
  match graph.content id with
  | .mapping _ => true
  | _ => false

/-- The number of entries of all mappings. -/
def entryCount (graph : Graph) : Nat :=
  graph.nodes.foldl (fun n node => match node.content with
    | .mapping entries => n + entries.length
    | _ => n) 0

end Graph

/-- A document: its nodes, and the one that holds all others. -/
structure Document where
  graph : Graph
  root : NodeId

end ApiHandbook.Yaml
