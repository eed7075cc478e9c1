/-!
# What can go wrong with a schema

Each error names the declaration and field it concerns, as far as they are known, and gives a
reason; its message puts the place in front of the reason.
-/
namespace ApiHandbook.Schema

inductive SchemaError where
  | general (reason : String) (declaration field : Option String)
  | duplicate (name kind : String)
  | unresolved (typeName : String) (scope declaration field : Option String)
  | unsupported (typeText : String) (declaration field : Option String)
  | missingRecord (record declaration : String)
  | missingProperty (property declaration : String)
  | undefinedMethod (method declaration : String)
  | unknownObject (name : String)
  | source (fault : String) (line : Option Int)
  deriving DecidableEq, Repr

namespace SchemaError

/-- An absent text and an empty one both say nothing. -/
def given (text : Option String) : Option String := text.filter (!·.isEmpty)

def reason : SchemaError → String
  | general reason _ _ => reason
  | duplicate _ kind => s!"duplicated {kind} declaration"
  | unresolved typeName scope _ _ =>
    s!"cannot resolve type name '{typeName}'" ++
      match given scope with
      | some scope => s!" in namespace '{scope}'"
      | none => ""
  | unsupported typeText _ _ => s!"unhandled type shape '{typeText}'"
  | missingRecord record _ => s!"missing nested '{record}' object record"
  | missingProperty property _ => s!"missing literal value for '{property}'"
  | undefinedMethod method _ => s!"undefined method, {method}"
  | unknownObject name => s!"no extracted object named '{name}'"
  | source fault none => fault
  | source fault (some line) => s!"line {line}: {fault}"

def declaration : SchemaError → Option String
  | general _ declaration _ => declaration
  | duplicate name _ => some name
  | unresolved _ _ declaration _ => declaration
  | unsupported _ declaration _ => declaration
  | missingRecord _ declaration => some declaration
  | missingProperty _ declaration => some declaration
  | undefinedMethod _ declaration => some declaration
  | unknownObject _ => none
  | source _ _ => none

def field : SchemaError → Option String
  | general _ _ field => field
  | unresolved _ _ _ field => field
  | unsupported _ _ field => field
  | missingProperty property _ => some property
  | undefinedMethod _ _ => some "method"
  | _ => none

/-- Declaration and field with a dot between them, or the one of them that is given. -/
def place (error : SchemaError) : Option String :=
  match given error.declaration, given error.field with
  | some declaration, some field => some (declaration ++ "." ++ field)
  | some declaration, none => some declaration
  | none, field => field

def message (error : SchemaError) : String :=
  match error.place with
  | some place => place ++ ": " ++ error.reason
  | none => error.reason

/-- A type shape that cannot be documented never stops a run. -/
def isUnsupported : SchemaError → Bool
  | unsupported _ _ _ => true
  | _ => false

end SchemaError

end ApiHandbook.Schema
