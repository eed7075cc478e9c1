import ApiHandbook.Extraction.Objects

/-!
# Endpoints

An endpoint is a record with a method, a path and four payload objects nested in it. All objects
nested in it are registered with it, or none if it fails.
-/
namespace ApiHandbook.Extraction

open Schema Source

def payloadRecords : List String := ["Header", "Query", "Body", "Response"]

/-- The initial value of a field that every value of the record has. -/
def initializer? (children : List Declaration) (field : String) : Option Initializer :=
  (Declaration.findField? children field).bind (·.heading.initializer)

def readMethod (name : String) (children : List Declaration) : Except SchemaError Method :=
  let ofText (text : String) : Except SchemaError Method :=
    match Method.ofWord? text with
    | some method => .ok method
    | none => .error (.undefinedMethod text name)
  match initializer? children "method" with
  | some ⟨.member, text, _⟩ => ofText text
  | some ⟨.string, _, segments⟩ => ofText (String.join segments)
  | _ => .error (.missingProperty "method" name)

def readRoute (rules : Rules) (name : String) (children : List Declaration) :
    Except SchemaError String :=
  match initializer? children "path" with
  | some ⟨.string, _, segments⟩ => .ok (rules.segmentSeparator.intercalate segments)
  | _ => .error (.missingProperty "path" name)

/-- The first payload that has no object record. -/
def missingPayload? (children : List Declaration) : Option String :=
  let nested := (children.filter (·.heading.isObject)).map (·.name)
  payloadRecords.find? (!nested.contains ·)

/-- What an endpoint says of itself, before its objects are extracted. -/
def readEndpoint (rules : Rules) (name : String) (children : List Declaration) :
    Except SchemaError Endpoint := do
  let method ← readMethod name children
  let path ← readRoute rules name children
  match missingPayload? children with
  | some record => throw (.missingRecord record name)
  | none =>
    let payload := qualifiedName (some name)
    return ⟨name, method, path, payload "Header", payload "Query", payload "Body",
      payload "Response"⟩

/-- Registers the objects nested in an endpoint. An object directly inside it stops the endpoint
when it fails, even outside strict runs. -/
def extractPayloads (rules : Rules) (strict : Bool) (name : String) (registry : Registry) :
    List Declaration → Except Stopped Registry
  | [] => .ok registry
  | child :: rest => do
    let registry ←
      if child.heading.isObject then extractObject rules strict (some name) registry child
      else walkObjects rules strict (some name) registry child
    extractPayloads rules strict name registry rest

/-- The endpoint of a record, with its objects registered. -/
def parseEndpoint (rules : Rules) (strict : Bool) (scope : Option String) (registry : Registry) :
    Declaration → Except Stopped (Registry × Endpoint)
  | .node heading children =>
    let name := qualifiedName scope heading.name
    match readEndpoint rules name children with
    | .error error => .error ⟨registry, error⟩
    | .ok endpoint =>
      match extractPayloads rules strict name registry children with
      | .ok registry => .ok (registry, endpoint)
      | .error stopped =>
        .error ⟨stopped.registry.keepObjects (registry.objects.map (·.name)), stopped.error⟩

def extractEndpoint (rules : Rules) (strict : Bool) (scope : Option String)
    (registry : Registry) (declaration : Declaration) : Except Stopped Registry :=
  tolerate strict do
    let (registry, endpoint) ← parseEndpoint rules strict scope registry declaration
    return registry.registerEndpoint endpoint

mutual

def walkEndpoints (rules : Rules) (strict : Bool) (scope : Option String)
    (registry : Registry) : Declaration → Except Stopped Registry
  | .node heading children =>
    if !heading.isType then .ok registry
    else if heading.isEndpoint then
      extractEndpoint rules strict scope registry (.node heading children)
    else
      walkAllEndpoints rules strict (some (qualifiedName scope heading.name)) registry children

def walkAllEndpoints (rules : Rules) (strict : Bool) (scope : Option String)
    (registry : Registry) : List Declaration → Except Stopped Registry
  | [] => .ok registry
  | declaration :: rest => do
    let registry ← walkEndpoints rules strict scope registry declaration
    walkAllEndpoints rules strict scope registry rest

end

end ApiHandbook.Extraction
