import ApiHandbook.Handbook.Page

/-!
# The handbook

One section for each endpoint, in the order of registration, and on demand a catalog of all
objects.
-/
namespace ApiHandbook.Handbook

open Schema

def payloadSection (page title : String) (members : List Member) : List String :=
  ["## " ++ title, ""] ++ propertyTable page members ++ "" :: separator

/-- The lines of an endpoint's section. Objects count as related to it when they can be reached
from its body or response. -/
def endpointLines (registry : Registry) (endpoint : Endpoint) :
    Except SchemaError (List String) := do
  let page := endpoint.name
  let method := endpoint.method.label
  let header ← registry.object endpoint.header
  let query ← registry.object endpoint.query
  let body ← registry.object endpoint.body
  let response ← registry.object endpoint.response
  let related := relatedObjects registry (body.members ++ response.members)
  return ["## " ++ method ++ " : " ++ page, "", "**Path** : " ++ endpoint.path,
      "**Method** : " ++ method, ""]
    ++ payloadSection page "Header" header.members
    ++ payloadSection page "Query" query.members
    ++ payloadSection page "Body" body.members
    ++ payloadSection page "Response" response.members
    ++ ["## Related Objects", ""]
    ++ objectSections page "###" related

def renderEndpoint (registry : Registry) (endpoint : Endpoint) : Except SchemaError String := do
  return joinLines (← endpointLines registry endpoint)

def renderEndpoints (registry : Registry) : List Endpoint → Except SchemaError (List String)
  | [] => .ok []
  | endpoint :: rest => do
    let first ← renderEndpoint registry endpoint
    return first :: (← renderEndpoints registry rest)

/-- The page of the catalog. -/
def globalPage : String := "global"

def renderCatalog (registry : Registry) : String :=
  joinLines (["## Objects", ""] ++ objectSections globalPage "###" registry.objects)

/-- A text without the line ends behind its last line. -/
def trimLineEnds (text : String) : String :=
  String.ofList (text.toList.reverse.dropWhile (· = '\n')).reverse

def renderDocument (registry : Registry) (catalog : Bool) : Except SchemaError String := do
  let sections ← renderEndpoints registry registry.endpoints
  let sections := if catalog then sections ++ [renderCatalog registry] else sections
  return "\n\n".intercalate (sections.map trimLineEnds) ++ "\n"

end ApiHandbook.Handbook
