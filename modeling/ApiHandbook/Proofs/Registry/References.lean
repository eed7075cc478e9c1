import ApiHandbook.Handbook.Related
import ApiHandbook.Proofs.Except
import ApiHandbook.Proofs.Registry.Growth

/-!
# References to objects

What a type name resolves to mentions no object but known symbols and those that a primitive
keyword or an earlier wrapper mentions.
-/
namespace ApiHandbook
open Schema Source

/-- The objects that the types of primitive keywords mention. -/
def Rules.references (rules : Rules) : List String := rules.primitives.flatMap (·.2.references)

namespace Schema.Endpoint

/-- The names of the objects that an endpoint stands on. -/
def payloads (endpoint : Endpoint) : List String :=
  [endpoint.header, endpoint.query, endpoint.body, endpoint.response]

end Schema.Endpoint

namespace Registry

/-- The objects that members and cases mention, through arrays and choices at any depth. -/
def typeReferences (registry : Registry) : List String :=
  registry.objects.flatMap (fun object => Handbook.memberReferences object.members) ++
    registry.wrappers.flatMap (fun wrapper => caseReferences wrapper.cases)

/-- All references to objects in a registry. -/
def references (registry : Registry) : List String :=
  registry.endpoints.flatMap (·.payloads) ++ registry.typeReferences

end Registry

theorem mem_caseReferences {name : String} {cases : List (String × ValueType)} :
    name ∈ caseReferences cases ↔ ∃ entry ∈ cases, name ∈ entry.2.references := by
  induction cases with
  | nil => simp [caseReferences]
  | cons entry rest ih =>
    rw [caseReferences, List.mem_append, ih]
    simp

theorem Registry.mem_typeReferences {name : String} {registry : Registry} :
    name ∈ registry.typeReferences ↔
      (∃ object ∈ registry.objects, ∃ member ∈ object.members,
        name ∈ member.valueType.references) ∨
      ∃ wrapper ∈ registry.wrappers, ∃ entry ∈ wrapper.cases, name ∈ entry.2.references := by
  simp [typeReferences, Handbook.memberReferences, mem_caseReferences]

theorem longest?_mem {names : List String} {name : String} (found : longest? names = some name) :
    name ∈ names := by
  fun_induction longest? names with
  | case1 => cases found
  | case2 first rest none_eq ih =>
    cases found
    exact List.mem_cons_self
  | case3 first rest other other_eq longer ih =>
    cases found
    exact List.mem_cons_of_mem _ (ih other_eq)
  | case4 first rest other other_eq shorter ih =>
    cases found
    exact List.mem_cons_self

theorem bestMatch?_mem {names : List String} {target name : String}
    (found : bestMatch? names target = some name) : name ∈ names := by
  unfold bestMatch? at found
  split at found
  · rename_i exact_match
    cases found
    simpa using exact_match
  · exact List.mem_of_mem_filter (longest?_mem found)

namespace Registry

theorem match?_references {registry : Registry} {target name : String} {type : ValueType}
    (found : registry.match? target = some type) (mentioned : name ∈ type.references) :
    name ∈ registry.symbols ∨ name ∈ registry.typeReferences := by
  unfold match? at found
  split at found
  · obtain ⟨wrapper, wrapper_eq, rfl⟩ := Option.map_eq_some_iff.mp found
    rw [Wrapper.valueType, ValueType.references, mem_caseReferences] at mentioned
    right
    exact mem_typeReferences.mpr (.inr ⟨wrapper, List.mem_of_find?_eq_some wrapper_eq, mentioned⟩)
  · obtain ⟨symbol, symbol_eq, rfl⟩ := Option.map_eq_some_iff.mp found
    rw [ValueType.references, List.mem_singleton] at mentioned
    left
    rw [mentioned]
    exact bestMatch?_mem symbol_eq

theorem resolve?_references {registry : Registry} {rules : Rules} {lookup : Lookup}
    {name : String} {type : ValueType} (found : registry.resolve? rules lookup = some type)
    (mentioned : name ∈ type.references) :
    name ∈ rules.references ∨ name ∈ registry.symbols ∨ name ∈ registry.typeReferences := by
  unfold resolve? at found
  split at found
  · rename_i primitive primitive_eq
    cases found
    left
    obtain ⟨before, after, entries, _⟩ := List.lookup_eq_some_iff.mp primitive_eq
    exact List.mem_flatMap.mpr ⟨(lookup.name, type), by simp [entries], mentioned⟩
  · obtain ⟨target, _, matched⟩ := List.exists_of_findSome?_eq_some found
    exact .inr (match?_references matched mentioned)

/-- A written type that resolves is a name, and its type is what the name stands for, or an array
of that. -/
theorem resolveShape_ok {registry : Registry} {rules : Rules} {shape : TypeShape}
    {scope : Option String} {declaration : String} {field : Option String} {type : ValueType}
    {required : Bool}
    (resolved : registry.resolveShape rules shape scope declaration field = .ok (type, required)) :
    ∃ name found, shape.name = some name ∧
      registry.resolve? rules (registry.lookup name scope) = some found ∧
      type = if shape.kind = .array then .array found else found := by
  unfold resolveShape at resolved
  split at resolved
  · cases resolved
  · cases resolved
  · rename_i name name_eq _
    obtain ⟨found, found_eq, made⟩ := ok_of_bind resolved
    unfold resolve at found_eq
    dsimp only at found_eq
    split at found_eq <;> cases found_eq
    rename_i resolved_eq
    refine ⟨name, found, name_eq, resolved_eq, ?_⟩
    split at made
    · rename_i array
      cases made
      rw [if_pos array]
    · rename_i other
      cases made
      rw [if_neg other]

theorem resolveShape_references {registry : Registry} {rules : Rules} {shape : TypeShape}
    {scope : Option String} {declaration : String} {field : Option String} {type : ValueType}
    {required : Bool} {name : String}
    (resolved : registry.resolveShape rules shape scope declaration field = .ok (type, required))
    (mentioned : name ∈ type.references) :
    name ∈ rules.references ∨ name ∈ registry.symbols ∨ name ∈ registry.typeReferences := by
  obtain ⟨typeName, found, _, found_eq, rfl⟩ := resolveShape_ok resolved
  have same : name ∈ found.references := by
    split at mentioned
    · rwa [ValueType.references] at mentioned
    · exact mentioned
  exact resolve?_references found_eq same

end Registry

end ApiHandbook
