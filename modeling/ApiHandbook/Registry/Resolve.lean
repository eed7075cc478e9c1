import ApiHandbook.Registry.Basic
import ApiHandbook.Source.Declaration
import ApiHandbook.Text.Split

/-!
# Resolving type names

A type name is looked up in the scope that mentions it and then in the scopes around that, out to
the global one; a dotted name only inside its qualifier. In each scope a qualified name matches
exactly or as the end of a longer one, wrappers before objects.
-/
namespace ApiHandbook

open Schema Source Text

theorem length_eraseP_lt_of_find? {α : Type} {test : α → Bool} {list : List α} {found : α}
    (h : list.find? test = some found) : (list.eraseP test).length < list.length := by
  have member := List.mem_of_find?_eq_some h
  rw [List.length_eraseP_of_mem member (List.find?_some h)]
  have := List.length_pos_of_mem member
  omega

/-- The scopes from `scope` outwards without the global one. Declared scopes follow their
recorded parents, each at most once; others are cut at underscores. -/
def scopesFrom (table : List (String × Option String)) (scope : String) : List String :=
  if scope = "" then []
  else
    match declared : table.find? (·.1 == scope) with
    | some (_, none) => [scope]
    | some (_, some parent) =>
      have := length_eraseP_lt_of_find? declared
      scope :: scopesFrom (table.eraseP (·.1 == scope)) parent
    | none =>
      match cut : splitLast? '_' scope.toList with
      | some (outer, _) =>
        have := length_lt_of_splitLast? cut
        scope :: scopesFrom table (String.ofList outer)
      | none => [scope]
termination_by (table.length, scope.toList.length)

namespace Registry

/-- The scopes from `scope` out to the global one. -/
def enclosingScopes (registry : Registry) (scope : Option String) : List (Option String) :=
  (scopesFrom registry.scopes (scope.getD "")).map some ++ [none]

end Registry

/-- The longest name, the first of them among equals. -/
def longest? : List String → Option String
  | [] => none
  | name :: rest =>
    match longest? rest with
    | none => some name
    | some other => if other.length > name.length then some other else some name

/-- Whether `target` is the last part of a qualified name. -/
def endsWithPart (target name : String) : Bool := ('_' :: target.toList).isSuffixOf name.toList

/-- The target itself if it is among the names, otherwise the longest name that ends with it. -/
def bestMatch? (names : List String) (target : String) : Option String :=
  if names.contains target then some target
  else longest? (names.filter (endsWithPart target))

/-- A type name to look up: its last component, the scope that counts, and the qualified names
to try in order. -/
structure Lookup where
  name : String
  scope : Option String
  targets : List String
  deriving DecidableEq, Repr

namespace Registry

def lookup (registry : Registry) (typeName : String) (scope : Option String) : Lookup :=
  match splitLast? '.' typeName.toList with
  | some (qualifier, name) =>
    let scope := String.ofList (qualifier.map fun c => if c = '.' then '_' else c)
    let name := String.ofList name
    ⟨name, some scope, [qualifiedName (some scope) name]⟩
  | none => ⟨typeName, scope, (registry.enclosingScopes scope).map (qualifiedName · typeName)⟩

/-- The wrapper or object that a qualified name stands for. -/
def match? (registry : Registry) (target : String) : Option ValueType :=
  match bestMatch? (registry.wrappers.map (·.name)) target with
  | some name => (registry.wrappers.find? (·.name == name)).map (·.valueType)
  | none => (bestMatch? registry.symbols target).map .object

/-- Primitive names win over all others, whatever the scope. -/
def resolve? (registry : Registry) (rules : Rules) (lookup : Lookup) : Option ValueType :=
  match rules.primitives.lookup lookup.name with
  | some type => some type
  | none => lookup.targets.findSome? registry.match?

/-- The type that a name stands for in a scope; `declaration` and `field` tell who mentions it. -/
def resolve (registry : Registry) (rules : Rules) (typeName : String) (scope : Option String)
    (declaration field : Option String) : Except SchemaError ValueType :=
  let lookup := registry.lookup typeName scope
  match registry.resolve? rules lookup with
  | some type => .ok type
  | none => .error (.unresolved lookup.name lookup.scope declaration field)

/-- The value type of a written type, and whether a value is required. A missing array counts as
an empty one. -/
def resolveShape (registry : Registry) (rules : Rules) (shape : TypeShape)
    (scope : Option String) (declaration : String) (field : Option String) :
    Except SchemaError (ValueType × Bool) :=
  match shape.kind, shape.name with
  | .unsupported, _ | _, none => .error (.unsupported shape.text (some declaration) field)
  | kind, some name => do
    let type ← registry.resolve rules name scope (some declaration) field
    return if kind = .array then (.array type, false) else (type, kind = .plain)

end Registry

end ApiHandbook
