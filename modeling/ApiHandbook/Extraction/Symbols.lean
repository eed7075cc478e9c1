import ApiHandbook.Registry.Basic
import ApiHandbook.Source.Declaration

/-! # Symbols: the names of all object records, and the scopes of all types -/
namespace ApiHandbook.Extraction

open Schema Source

mutual

def collectSymbols (scope : Option String) (registry : Registry) : Declaration → Registry
  | .node heading children =>
    if heading.isType then
      let name := qualifiedName scope heading.name
      let registry := registry.addScope name scope
      let registry := if heading.isObject then registry.addSymbol name else registry
      collectAllSymbols (some name) registry children
    else registry

def collectAllSymbols (scope : Option String) (registry : Registry) :
    List Declaration → Registry
  | [] => registry
  | declaration :: rest =>
    collectAllSymbols scope (collectSymbols scope registry declaration) rest

end

end ApiHandbook.Extraction
