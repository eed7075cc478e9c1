import ApiHandbook.Extraction.Basic
import ApiHandbook.Registry.Resolve
import ApiHandbook.Text.SnakeCase

/-!
# Wrappers: enumerations that choose between payloads

An enumeration is a wrapper when it has cases and each of them carries one payload; any other is
an ordinary one and left out. A payload whose type cannot be documented is recorded and leaves
its enumeration out as well.
-/
namespace ApiHandbook.Extraction

open Schema Source Text

/-- The case of a wrapper: named by its label, or by itself, in snake case. -/
def resolveCase (rules : Rules) (registry : Registry) (wrapper : String) (case : Heading)
    (parameter : CaseParameter) : Except SchemaError (String × ValueType) := do
  let (type, _) ←
    registry.resolveShape rules parameter.shape (some wrapper) wrapper (some case.name)
  return (snakeCase ((SchemaError.given parameter.label).getD case.name), type)

def resolveCases (rules : Rules) (registry : Registry) (wrapper : String) :
    List (Heading × CaseParameter) → Except SchemaError (List (String × ValueType))
  | [] => .ok []
  | (case, parameter) :: rest => do
    let first ← resolveCase rules registry wrapper case parameter
    return first :: (← resolveCases rules registry wrapper rest)

/-- The cases with their payloads, if each has exactly one. -/
def singlePayloads? : List Declaration → Option (List (Heading × CaseParameter))
  | [] => some []
  | case :: rest =>
    match case.heading.parameters with
    | [parameter] => (singlePayloads? rest).map ((case.heading, parameter) :: ·)
    | _ => none

/-- The wrapper of an enumeration, or none for an ordinary one. -/
def buildWrapper (rules : Rules) (registry : Registry) (scope : Option String) :
    Declaration → Except SchemaError (Option Wrapper)
  | .node heading children =>
    let name := qualifiedName scope heading.name
    match Declaration.ofKind .case children with
    | [] => .ok none
    | cases =>
      match singlePayloads? cases with
      | none => .ok none
      | some payloads => do
        return some ⟨name, ← resolveCases rules registry name payloads⟩

/-- Registers the wrapper of one enumeration. -/
def extractOneOf (rules : Rules) (strict : Bool) (scope : Option String) (registry : Registry)
    (declaration : Declaration) : Except Stopped Registry :=
  match buildWrapper rules registry scope declaration with
  | .ok (some wrapper) => .ok (registry.registerWrapper wrapper)
  | .ok none => .ok (registry.addOrdinaryEnum (qualifiedName scope declaration.name))
  | .error error => tolerate (strict && !error.isUnsupported) (.error ⟨registry, error⟩)

mutual

def walkOneOfs (rules : Rules) (strict : Bool) (scope : Option String) (registry : Registry) :
    Declaration → Except Stopped Registry
  | .node heading children =>
    if heading.isType then do
      let registry ←
        if heading.isOneOf then extractOneOf rules strict scope registry (.node heading children)
        else .ok registry
      walkAllOneOfs rules strict (some (qualifiedName scope heading.name)) registry children
    else .ok registry

def walkAllOneOfs (rules : Rules) (strict : Bool) (scope : Option String)
    (registry : Registry) : List Declaration → Except Stopped Registry
  | [] => .ok registry
  | declaration :: rest => do
    let registry ← walkOneOfs rules strict scope registry declaration
    walkAllOneOfs rules strict scope registry rest

end

end ApiHandbook.Extraction
