import ApiHandbook.Schema.Object
import ApiHandbook.Schema.Error

/-!
# The registry

What has been found in a schema so far. Every table keeps the order of registration, and the
first registration of a name wins: a later one is recorded as an error.
-/
namespace ApiHandbook

open Schema

/-- How type names and string defaults are understood. -/
structure Rules where
  primitives : List (String × ValueType) :=
    [("Int", .number), ("String", .string), ("Bool", .boolean)]
  segmentSeparator : String := ","
  deriving DecidableEq, Repr

structure Registry where
  /-- Qualified names of all object records. -/
  symbols : List String := []
  /-- Qualified names of all types with the name of the type around them. -/
  scopes : List (String × Option String) := []
  wrappers : List Wrapper := []
  objects : List SchemaObject := []
  endpoints : List Endpoint := []
  errors : List SchemaError := []
  /-- Choice types that are ordinary enumerations. -/
  ordinaryEnums : List String := []
  deriving DecidableEq, Repr

namespace Registry

def record (registry : Registry) (error : SchemaError) : Registry :=
  { registry with errors := registry.errors ++ [error] }

def addSymbol (registry : Registry) (name : String) : Registry :=
  if registry.symbols.contains name then registry
  else { registry with symbols := registry.symbols ++ [name] }

def addScope (registry : Registry) (name : String) (parent : Option String) : Registry :=
  if (registry.scopes.lookup name).isSome then registry
  else { registry with scopes := registry.scopes ++ [(name, parent)] }

def addOrdinaryEnum (registry : Registry) (name : String) : Registry :=
  { registry with ordinaryEnums := registry.ordinaryEnums ++ [name] }

def hasWrapper (registry : Registry) (name : String) : Bool :=
  registry.wrappers.any (·.name == name)

def hasObject (registry : Registry) (name : String) : Bool :=
  registry.objects.any (·.name == name)

def hasEndpoint (registry : Registry) (name : String) : Bool :=
  registry.endpoints.any (·.name == name)

def registerWrapper (registry : Registry) (wrapper : Wrapper) : Registry :=
  if registry.hasWrapper wrapper.name then registry.record (.duplicate wrapper.name "oneof")
  else { registry with wrappers := registry.wrappers ++ [wrapper] }

def registerObject (registry : Registry) (object : SchemaObject) : Registry :=
  if registry.hasObject object.name then registry.record (.duplicate object.name "object")
  else { registry with objects := registry.objects ++ [object] }

def registerEndpoint (registry : Registry) (endpoint : Endpoint) : Registry :=
  if registry.hasEndpoint endpoint.name then registry.record (.duplicate endpoint.name "endpoint")
  else { registry with endpoints := registry.endpoints ++ [endpoint] }

def object? (registry : Registry) (name : String) : Option SchemaObject :=
  registry.objects.find? (·.name == name)

def object (registry : Registry) (name : String) : Except SchemaError SchemaObject :=
  match registry.object? name with
  | some object => .ok object
  | none => .error (.unknownObject name)

/-- Drops all objects but those of the given names. -/
def keepObjects (registry : Registry) (names : List String) : Registry :=
  { registry with objects := registry.objects.filter (names.contains ·.name) }

end Registry

end ApiHandbook
