import ApiHandbook.Extraction.Basic
import ApiHandbook.Registry.Resolve
import ApiHandbook.Text.SnakeCase

/-!
# Objects: records with their members

Records nested in a record are registered before it. A field whose type cannot be documented is
recorded and left out; endpoints are passed over here.
-/
namespace ApiHandbook.Extraction

open Schema Source Text

/-- The member that tells which nominal object a value is. -/
def typeMember (object : String) : Member where
  key := "type"
  valueType := .string
  isRequired := true
  defaultValue := some (snakeCase object)
  comment := "The type name"

def memberOf (rules : Rules) (registry : Registry) (object : String) (field : Heading)
    (shape : TypeShape) : Except SchemaError Member := do
  let (valueType, isRequired) ←
    registry.resolveShape rules shape (some object) object (some field.name)
  return ⟨field.name, valueType, isRequired,
    field.initializer.bind (·.literal rules.segmentSeparator), field.comment⟩

/-- The members of an object's fields, in order, with the errors of those left out recorded. -/
def collectMembers (rules : Rules) (object : String) (registry : Registry) :
    List Heading → Except Stopped (Registry × List Member)
  | [] => .ok (registry, [])
  | field :: rest =>
    match field.shape, field.isStoredField with
    | some shape, true =>
      match memberOf rules registry object field shape with
      | .ok member => do
        let (registry, members) ← collectMembers rules object registry rest
        return (registry, member :: members)
      | .error error =>
        if error.isUnsupported then collectMembers rules object (registry.record error) rest
        else .error ⟨registry, error⟩
    | _, _ => collectMembers rules object registry rest

/-- Registers the object of a record whose nested records are registered already. -/
def finishObject (rules : Rules) (name : String) (heading : Heading)
    (children : List Declaration) (registry : Registry) : Except Stopped Registry := do
  let (registry, members) ←
    collectMembers rules name registry (Declaration.fieldHeadings children)
  let members := if heading.isNominal then typeMember name :: members else members
  return registry.registerObject ⟨name, heading.comment, members⟩

mutual

/-- Registers the objects at and below a declaration, except in endpoints. -/
def walkObjects (rules : Rules) (strict : Bool) (scope : Option String) (registry : Registry) :
    Declaration → Except Stopped Registry
  | .node heading children =>
    if !heading.isType || heading.isEndpoint then .ok registry
    else
      let name := qualifiedName scope heading.name
      if heading.isObject then
        tolerate strict do
          let registry ← walkAllObjects rules strict (some name) registry children
          finishObject rules name heading children registry
      else walkAllObjects rules strict (some name) registry children

def walkAllObjects (rules : Rules) (strict : Bool) (scope : Option String)
    (registry : Registry) : List Declaration → Except Stopped Registry
  | [] => .ok registry
  | declaration :: rest => do
    let registry ← walkObjects rules strict scope registry declaration
    walkAllObjects rules strict scope registry rest

end

/-- Registers a record as an object, whatever it conforms to, and the objects below it. -/
def extractObject (rules : Rules) (strict : Bool) (scope : Option String) (registry : Registry) :
    Declaration → Except Stopped Registry
  | .node heading children => do
    let name := qualifiedName scope heading.name
    let registry ← walkAllObjects rules strict (some name) registry children
    finishObject rules name heading children registry

end ApiHandbook.Extraction
