import ApiHandbook.Yaml.Node
import ApiHandbook.Yaml.Token

/-!
# Reading the nodes of a document

From tokens to a graph. Anchors name nodes for the aliases behind them; a collection is known by
its anchor inside itself, too.
-/
namespace ApiHandbook.Yaml

open Text (CodePoint shownText)

/-- What a node may be at its place. In a mapping a sequence need not be further to the right. -/
inductive Style where
  | block | blockValue | flow
  deriving DecidableEq, Repr

/-- The nodes read so far, and those known by their anchors. -/
structure Draft where
  graph : Graph := {}
  anchors : List (String × NodeId) := []

/-- A value read from tokens, with fewer than `bound` tokens left. -/
structure Parsed (bound : Nat) (α : Type) where
  value : α
  rest : List Token
  draft : Draft
  within : rest.length < bound

namespace Parsed

def map {bound : Nat} {α β : Type} (f : α → β) (parsed : Parsed bound α) : Parsed bound β :=
  { parsed with value := f parsed.value }

def widen {bound wider : Nat} {α : Type} (parsed : Parsed bound α) (h : bound ≤ wider) :
    Parsed wider α :=
  { parsed with within := Nat.lt_of_lt_of_le parsed.within h }

end Parsed

/-- What tag handles stand for. -/
abbrev Handles := List (String × String)

/-- The full tag that a shorthand stands for. -/
def fullTag (handles : Handles) : TagText → Except YamlError String
  | ⟨none, suffix⟩ => .ok suffix
  | ⟨some handle, suffix⟩ =>
    match handles.lookup handle with
    | some stem => .ok (stem ++ suffix)
    | none => .error .malformed

/-- What is wrong with tokens whose first one cannot stand where it does. -/
def unexpected : List Token → YamlError
  | .broken error :: _ => error
  | _ => .malformed

/-- Fails where the text behind cannot be scanned. -/
def requireScanned : List Token → Except YamlError Unit
  | .broken error :: _ => .error error
  | _ => .ok ()

def startsWith (stops : List Token) (tokens : List Token) : Bool :=
  tokens.head?.any stops.contains

/-- What comes in front of a node's content. -/
structure Properties where
  anchor : Option String := none
  tag : Option String := none

/-- A lone exclamation mark says that there is no tag. -/
def properKind? (tag : Option String) : Option Kind :=
  (tag.filter (· ≠ "!")).map Kind.ofTag

/-- A quoted scalar is a string unless a tag stands in front of it. -/
def scalarKind (tag : Option String) (text : List CodePoint) (plain : Bool) : Kind :=
  match properKind? tag with
  | some kind => kind
  | none => if tag.isNone && !plain then .string else implicitKind (shownText text)

namespace Draft

/-- Adds a node, with the name that its anchor gives it. -/
def add (draft : Draft) (anchor : Option String) (node : Node) : NodeId × Draft :=
  let (id, graph) := draft.graph.add node
  (id, ⟨graph, (anchor.toList.map (·, id)) ++ draft.anchors⟩)

def addScalar (draft : Draft) (properties : Properties) (text : List CodePoint) (plain : Bool) :
    NodeId × Draft :=
  draft.add properties.anchor ⟨scalarKind properties.tag text plain, .scalar text⟩

def addEmpty (draft : Draft) : NodeId × Draft := draft.addScalar {} [] true

/-- Adds a sequence whose items are still to be read. -/
def openSequence (draft : Draft) (properties : Properties) : NodeId × Draft :=
  draft.add properties.anchor ⟨(properKind? properties.tag).getD .list, .sequence []⟩

/-- Adds a mapping whose entries are still to be read. -/
def openMapping (draft : Draft) (properties : Properties) : NodeId × Draft :=
  draft.add properties.anchor ⟨(properKind? properties.tag).getD .mapping, .mapping []⟩

def fill (draft : Draft) (id : NodeId) (content : Content) : Draft :=
  { draft with graph := draft.graph.setContent id content }

end Draft

namespace Parsed

/-- A sequence, when its items have been read. -/
def sequence {bound : Nat} (id : NodeId) (items : Parsed bound (List NodeId)) :
    Parsed bound NodeId :=
  { items with value := id, draft := items.draft.fill id (.sequence items.value) }

/-- A mapping, when its entries have been read. -/
def mapping {bound : Nat} (id : NodeId) (entries : Parsed bound (List (NodeId × NodeId))) :
    Parsed bound NodeId :=
  { entries with value := id, draft := entries.draft.fill id (.mapping entries.value) }

end Parsed

mutual

/-- Reads a node with the anchor and tag in front of it. -/
def readNode (handles : Handles) (style : Style) (draft : Draft) :
    (tokens : List Token) → Except YamlError (Parsed tokens.length NodeId)
  | .alias name :: rest =>
    match draft.anchors.lookup name with
    | some id => .ok ⟨id, rest, draft, Nat.lt_succ_self _⟩
    | none => .error .malformed
  | .anchor name :: .tag tag :: rest => do
    let tag ← fullTag handles tag
    let node ← readPropertied handles style draft ⟨some name, some tag⟩ rest
    return node.widen (by simp)
  | .tag tag :: .anchor name :: rest => do
    let tag ← fullTag handles tag
    let node ← readPropertied handles style draft ⟨some name, some tag⟩ rest
    return node.widen (by simp)
  | .anchor name :: rest => do
    let node ← readPropertied handles style draft ⟨some name, none⟩ rest
    return node.widen (by simp)
  | .tag tag :: rest => do
    requireScanned rest
    let tag ← fullTag handles tag
    let node ← readPropertied handles style draft ⟨none, some tag⟩ rest
    return node.widen (by simp)
  | tokens => do
    match ← readContent handles style draft {} tokens with
    | some node => return node
    | none => throw (unexpected tokens)
termination_by tokens => 5 * tokens.length + 1

/-- Reads what follows an anchor or tag; nothing may follow it. No two nodes have one anchor. -/
def readPropertied (handles : Handles) (style : Style) (draft : Draft)
    (properties : Properties) (tokens : List Token) :
    Except YamlError (Parsed (tokens.length + 1) NodeId) := do
  requireScanned tokens
  if properties.anchor.any fun name => (draft.anchors.lookup name).isSome then throw .malformed
  match ← readContent handles style draft properties tokens with
  | some node => return node.widen (Nat.le_succ _)
  | none =>
    let (id, draft) := draft.addScalar properties [] true
    return ⟨id, tokens, draft, Nat.lt_succ_self _⟩
termination_by 5 * tokens.length + 1

/-- Reads a node's content, if there is any. -/
def readContent (handles : Handles) (style : Style) (draft : Draft) (properties : Properties) :
    (tokens : List Token) → Except YamlError (Option (Parsed tokens.length NodeId))
  | .scalar text plain :: rest =>
    let (id, draft) := draft.addScalar properties text plain
    .ok (some ⟨id, rest, draft, Nat.lt_succ_self _⟩)
  | .flowSequenceStart :: rest => do
    let (id, draft) := draft.openSequence properties
    let items ← readFlowSequence handles draft true rest
    return some ((items.sequence id).widen (by simp))
  | .flowMappingStart :: rest => do
    let (id, draft) := draft.openMapping properties
    let entries ← readFlowMapping handles draft true rest
    return some ((entries.mapping id).widen (by simp))
  | .sequenceStart :: rest =>
    if style = .flow then .ok none
    else do
      let (id, draft) := draft.openSequence properties
      let items ← readBlockSequence handles draft rest
      return some ((items.sequence id).widen (by simp))
  | .mappingStart :: rest =>
    if style = .flow then .ok none
    else do
      let (id, draft) := draft.openMapping properties
      let entries ← readBlockMapping handles draft rest
      return some ((entries.mapping id).widen (by simp))
  | .entry :: rest =>
    if style = .blockValue then do
      let (id, draft) := draft.openSequence properties
      let first ← readOptional handles .block [.entry, .key, .value, .blockEnd] draft rest
      have := first.within
      let items ← readIndentless handles first.draft first.rest
      let items := items.map (first.value :: ·)
      return some ((items.sequence id).widen (by simp only [List.length_cons]; omega))
    else .ok none
  | _ => .ok none
termination_by tokens => 5 * tokens.length

/-- Reads a node unless one of the given tokens comes next: then the node is empty. -/
def readOptional (handles : Handles) (style : Style) (stops : List Token) (draft : Draft)
    (tokens : List Token) : Except YamlError (Parsed (tokens.length + 1) NodeId) :=
  if startsWith stops tokens then
    let (id, draft) := draft.addEmpty
    .ok ⟨id, tokens, draft, Nat.lt_succ_self _⟩
  else do return (← readNode handles style draft tokens).widen (Nat.le_succ _)
termination_by 5 * tokens.length + 2

/-- Reads the value behind a colon; without one the value is empty. -/
def readPairValue (handles : Handles) (style : Style) (stops : List Token) (draft : Draft) :
    (tokens : List Token) → Except YamlError (Parsed (tokens.length + 1) NodeId)
  | .value :: rest => do
    return (← readOptional handles style stops draft rest).widen (by simp)
  | tokens =>
    let (id, draft) := draft.addEmpty
    .ok ⟨id, tokens, draft, Nat.lt_succ_self _⟩
termination_by tokens => 5 * tokens.length + 3

/-- Reads a key and its value. -/
def readPair (handles : Handles) (style : Style) (stops : List Token) (draft : Draft)
    (tokens : List Token) :
    Except YamlError (Parsed (tokens.length + 1) (NodeId × NodeId)) := do
  let key ← readOptional handles style (.value :: stops) draft tokens
  have := key.within
  let value ← readPairValue handles style stops key.draft key.rest
  have := value.within
  return ⟨(key.value, value.value), value.rest, value.draft, by omega⟩
termination_by 5 * tokens.length + 4

def readBlockSequence (handles : Handles) (draft : Draft) :
    (tokens : List Token) → Except YamlError (Parsed tokens.length (List NodeId))
  | .blockEnd :: rest => .ok ⟨[], rest, draft, Nat.lt_succ_self _⟩
  | .entry :: rest => do
    let item ← readOptional handles .block [.entry, .blockEnd] draft rest
    have := item.within
    let items ← readBlockSequence handles item.draft item.rest
    have := items.within
    return ⟨item.value :: items.value, items.rest, items.draft, by simp; omega⟩
  | tokens => .error (unexpected tokens)
termination_by tokens => 5 * tokens.length + 4

/-- Reads further entries of a sequence that stands at the column of the mapping around it. -/
def readIndentless (handles : Handles) (draft : Draft) :
    (tokens : List Token) → Except YamlError (Parsed (tokens.length + 1) (List NodeId))
  | .entry :: rest => do
    let item ← readOptional handles .block [.entry, .key, .value, .blockEnd] draft rest
    have := item.within
    let items ← readIndentless handles item.draft item.rest
    have := items.within
    return ⟨item.value :: items.value, items.rest, items.draft, by simp; omega⟩
  | tokens => .ok ⟨[], tokens, draft, Nat.lt_succ_self _⟩
termination_by tokens => 5 * tokens.length + 4

def readBlockMapping (handles : Handles) (draft : Draft) :
    (tokens : List Token) → Except YamlError (Parsed tokens.length (List (NodeId × NodeId)))
  | .blockEnd :: rest => .ok ⟨[], rest, draft, Nat.lt_succ_self _⟩
  | .key :: rest => do
    let entry ← readPair handles .blockValue [.key, .value, .blockEnd] draft rest
    have := entry.within
    let entries ← readBlockMapping handles entry.draft entry.rest
    have := entries.within
    return ⟨entry.value :: entries.value, entries.rest, entries.draft, by simp; omega⟩
  | tokens => .error (unexpected tokens)
termination_by tokens => 5 * tokens.length + 4

/-- Reads the items of a flow sequence; all but the first follow a comma. -/
def readFlowSequence (handles : Handles) (draft : Draft) (first : Bool) :
    (tokens : List Token) → Except YamlError (Parsed tokens.length (List NodeId))
  | .flowSequenceEnd :: rest => .ok ⟨[], rest, draft, Nat.lt_succ_self _⟩
  | .flowEntry :: rest =>
    if first then .error .malformed
    else do return (← readFlowItem handles draft rest).widen (by simp)
  | tokens =>
    if first then readFlowItem handles draft tokens else .error (unexpected tokens)
termination_by tokens => 5 * tokens.length + 4

/-- Reads one item of a flow sequence and those behind it. A pair is a mapping of its own. -/
def readFlowItem (handles : Handles) (draft : Draft) :
    (tokens : List Token) → Except YamlError (Parsed tokens.length (List NodeId))
  | .flowSequenceEnd :: rest => .ok ⟨[], rest, draft, Nat.lt_succ_self _⟩
  | .key :: rest => do
    let (id, draft) := draft.openMapping {}
    let entry ← readPair handles .flow [.flowEntry, .flowSequenceEnd] draft rest
    have := entry.within
    let draft := entry.draft.fill id (.mapping [entry.value])
    let items ← readFlowSequence handles draft false entry.rest
    have := items.within
    return ⟨id :: items.value, items.rest, items.draft, by simp; omega⟩
  | tokens => do
    let item ← readNode handles .flow draft tokens
    have := item.within
    let items ← readFlowSequence handles item.draft false item.rest
    have := items.within
    return ⟨item.value :: items.value, items.rest, items.draft, by omega⟩
termination_by tokens => 5 * tokens.length + 3

/-- Reads the entries of a flow mapping; all but the first follow a comma. -/
def readFlowMapping (handles : Handles) (draft : Draft) (first : Bool) :
    (tokens : List Token) → Except YamlError (Parsed tokens.length (List (NodeId × NodeId)))
  | .flowMappingEnd :: rest => .ok ⟨[], rest, draft, Nat.lt_succ_self _⟩
  | .flowEntry :: rest =>
    if first then .error .malformed
    else do return (← readFlowPair handles draft rest).widen (by simp)
  | tokens =>
    if first then readFlowPair handles draft tokens else .error (unexpected tokens)
termination_by tokens => 5 * tokens.length + 4

/-- Reads one entry of a flow mapping and those behind it. A node that is no key has no value. -/
def readFlowPair (handles : Handles) (draft : Draft) :
    (tokens : List Token) → Except YamlError (Parsed tokens.length (List (NodeId × NodeId)))
  | .flowMappingEnd :: rest => .ok ⟨[], rest, draft, Nat.lt_succ_self _⟩
  | .key :: rest => do
    let entry ← readPair handles .flow [.flowEntry, .flowMappingEnd] draft rest
    have := entry.within
    let entries ← readFlowMapping handles entry.draft false entry.rest
    have := entries.within
    return ⟨entry.value :: entries.value, entries.rest, entries.draft, by simp; omega⟩
  | tokens => do
    let key ← readNode handles .flow draft tokens
    have := key.within
    let (value, draft) := key.draft.addEmpty
    let entries ← readFlowMapping handles draft false key.rest
    have := entries.within
    return ⟨(key.value, value) :: entries.value, entries.rest, entries.draft, by omega⟩
termination_by tokens => 5 * tokens.length + 3

end

/-- Takes the directives in front of a document: at most one version, which has to be 1, and
each handle at most once. -/
def takeDirectives (version : Bool) (handles : Handles) :
    List Token → Except YamlError (Handles × List Token)
  | .directive (.version major) :: rest =>
    if version || major ≠ 1 then .error .malformed else takeDirectives true handles rest
  | .directive (.tag handle stem) :: rest =>
    if (handles.lookup handle).isSome then .error .malformed
    else takeDirectives version ((handle, stem) :: handles) rest
  | .directive .other :: rest => takeDirectives version handles rest
  | tokens => .ok (handles, tokens)

def standardHandles : Handles := [("!", "!"), ("!!", coreTag "")]

/-- Reads the root of a document. -/
def readRoot (handles : Handles) (tokens : List Token) :
    Except YamlError (Document × List Token) := do
  let node ← readNode handles .block {} tokens
  return (⟨node.draft.graph, node.value⟩, node.rest)

/-- Reads a document behind its start; there may be nothing in it. -/
def readDocument (handles : Handles) (tokens : List Token) :
    Except YamlError (Document × List Token) :=
  match tokens with
  | .streamEnd :: _ | .directive _ :: _ | .documentStart :: _ | .documentEnd :: _ =>
    let (id, draft) := ({} : Draft).addEmpty
    .ok (⟨draft.graph, id⟩, tokens)
  | tokens => readRoot (handles ++ standardHandles) tokens

/-- Reads a document with its directives and its start. -/
def readExplicit (tokens : List Token) : Except YamlError (Document × List Token) := do
  let (handles, rest) ← takeDirectives false [] tokens
  match rest with
  | .documentStart :: rest => readDocument handles rest
  | rest => throw (unexpected rest)

/-- Makes sure that no further document follows. -/
def requireEnd (tokens : List Token) : Except YamlError Unit := do
  match tokens.dropWhile (· = .documentEnd) with
  | .streamEnd :: _ => return
  | tokens =>
    let (_, rest) ← takeDirectives false [] tokens
    throw (unexpected rest)

/-- The only document of a text, if there is one. -/
def readSingle (tokens : List Token) : Except YamlError (Option Document) := do
  match tokens with
  | .streamEnd :: _ => return none
  | tokens =>
    let explicit := match tokens with
      | .directive _ :: _ | .documentStart :: _ => true
      | _ => false
    let (document, rest) ←
      if explicit then readExplicit tokens else readRoot standardHandles tokens
    requireEnd rest
    return some document

end ApiHandbook.Yaml
