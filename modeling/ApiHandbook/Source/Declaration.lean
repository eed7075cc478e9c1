/-!
# Declarations

The tree read from a schema source: nested types, fields and cases with their names, comments,
type shapes and initial values.
-/
namespace ApiHandbook.Source

/-- How a type is written. `named` stands for a form that only other tools produce. -/
inductive ShapeKind where
  | plain | optional | array | unsupported
  | named (word : String)
  deriving DecidableEq, Repr

/-- A written type. The name may be a dotted path. -/
structure TypeShape where
  kind : ShapeKind
  name : Option String := none
  text : String
  deriving DecidableEq, Repr

namespace TypeShape

def plain (name : String) : TypeShape := ⟨.plain, some name, name⟩

def optional (name : String) : TypeShape := ⟨.optional, some name, name ++ "?"⟩

def array (name : String) : TypeShape := ⟨.array, some name, "[" ++ name ++ "]"⟩

def unsupported (text : String) : TypeShape := ⟨.unsupported, none, text⟩

end TypeShape

inductive InitializerKind where
  | string | integer | boolean | member | expression
  | named (word : String)
  deriving DecidableEq, Repr

/-- An initial value. The segments are the parts of a string literal around its splices. -/
structure Initializer where
  kind : InitializerKind
  text : String := ""
  segments : List String := []
  deriving DecidableEq, Repr

/-- The default that a literal stands for; other expressions have none. -/
def Initializer.literal (separator : String) (value : Initializer) : Option String :=
  match value.kind with
  | .string => some (separator.intercalate value.segments)
  | .integer | .boolean => some value.text
  | _ => none

structure CaseParameter where
  label : Option String := none
  shape : TypeShape
  deriving DecidableEq, Repr

inductive DeclarationKind where
  | record | sum | field | case | other
  deriving DecidableEq, Repr

/-- All of a declaration but what is nested in it. -/
structure Heading where
  kind : DeclarationKind
  name : String
  conformances : List String := []
  modifiers : List String := []
  comment : String := ""
  shape : Option TypeShape := none
  initializer : Option Initializer := none
  parameters : List CaseParameter := []
  line : Option Int := none
  deriving DecidableEq, Repr

inductive Declaration where
  | node (heading : Heading) (children : List Declaration)
  deriving Repr

namespace Heading

def conformsTo (heading : Heading) (capabilities : List String) : Bool :=
  capabilities.any heading.conformances.contains

/-- Types nest: only records and sums have members of their own. -/
def isType (heading : Heading) : Bool := heading.kind = .record || heading.kind = .sum

def isObject (heading : Heading) : Bool :=
  heading.kind = .record && heading.conformsTo ["Object", "NominalObject"]

def isNominal (heading : Heading) : Bool :=
  heading.kind = .record && heading.conformsTo ["NominalObject"]

def isEndpoint (heading : Heading) : Bool :=
  heading.kind = .record && heading.conformsTo ["Endpoint"]

def isOneOf (heading : Heading) : Bool :=
  heading.kind = .sum && heading.conformsTo ["OneOf"]

/-- A field of the type itself and not of its values. -/
def isShared (heading : Heading) : Bool :=
  heading.modifiers.contains "static" || heading.modifiers.contains "class"

def isStoredField (heading : Heading) : Bool :=
  heading.kind = .field && heading.shape.isSome && !heading.isShared

end Heading

namespace Declaration

def heading : Declaration → Heading
  | node heading _ => heading

def children : Declaration → List Declaration
  | node _ children => children

def name (declaration : Declaration) : String := declaration.heading.name

/-- The children of one kind, in source order. -/
def ofKind (kind : DeclarationKind) (children : List Declaration) : List Declaration :=
  children.filter (·.heading.kind = kind)

def fieldHeadings (children : List Declaration) : List Heading :=
  (ofKind .field children).map heading

/-- The first field of that name that every value has. -/
def findField? (children : List Declaration) (name : String) : Option Declaration :=
  (ofKind .field children).find? fun child => child.name == name && !child.heading.isShared

end Declaration

end ApiHandbook.Source
