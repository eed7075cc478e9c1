import ApiHandbook.Schema.ValueType

/-! # Objects and endpoints of a schema -/
namespace ApiHandbook.Schema

structure Member where
  key : String
  valueType : ValueType
  isRequired : Bool
  defaultValue : Option String := none
  comment : String := ""
  deriving DecidableEq, Repr

/-- A record of the schema with its members in source order. -/
structure SchemaObject where
  name : String
  comment : String := ""
  members : List Member := []
  deriving DecidableEq, Repr

inductive Method where
  | get | post | put | delete
  deriving DecidableEq, Repr

def Method.word : Method → String
  | .get => "get"
  | .post => "post"
  | .put => "put"
  | .delete => "delete"

def Method.label : Method → String
  | .get => "GET"
  | .post => "POST"
  | .put => "PUT"
  | .delete => "DELETE"

def Method.ofWord? (word : String) : Option Method :=
  [.get, .post, .put, .delete].find? fun method => method.word == word

/-- An endpoint; its four payloads are named objects. -/
structure Endpoint where
  name : String
  method : Method
  path : String
  header : String
  query : String
  body : String
  response : String
  deriving DecidableEq, Repr

/-- A name inside a scope. The global scope, absent or empty, adds nothing. -/
def qualifiedName (scope : Option String) (name : String) : String :=
  match scope with
  | none => name
  | some scope => if scope.isEmpty then name else scope ++ "_" ++ name

end ApiHandbook.Schema
