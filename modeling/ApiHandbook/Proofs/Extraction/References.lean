import ApiHandbook.Proofs.Registry.References
import ApiHandbook.Proofs.Extraction.Coverage
import ApiHandbook.Proofs.Extraction.Payloads

/-!
# References after an extraction

Types mention symbols and what the primitive keywords mention, in every state of a run. After a
strict run that returns, a reference is therefore left open by nothing but a keyword or an object
record that the walks do not extract.
-/
namespace ApiHandbook.Extraction
open Schema Source
open Relation (ReflTransGen)

/-- Every object that a type mentions is a symbol, or mentioned by a primitive keyword. -/
def ReferencesKnown (rules : Rules) (registry : Registry) : Prop :=
  ∀ name ∈ registry.typeReferences, name ∈ rules.references ∨ name ∈ registry.symbols

theorem ReferencesKnown.available {rules : Rules} {registry : Registry} {type : ValueType}
    (known : ReferencesKnown rules registry) (available : Available rules registry type) :
    ∀ name ∈ type.references, name ∈ rules.references ∨ name ∈ registry.symbols := by
  intro name mentioned
  rcases available with rfl | ⟨shape, scope, declaration, field, required, resolved⟩
  · simp [ValueType.references] at mentioned
  · rcases Registry.resolveShape_references resolved mentioned with keyword | symbol | earlier
    · exact .inl keyword
    · exact .inr symbol
    · exact known name earlier

theorem ReferencesKnown.registerWrapper {rules : Rules} {registry : Registry} {wrapper : Wrapper}
    (known : ReferencesKnown rules registry)
    (available : ∀ entry ∈ wrapper.cases, Available rules registry entry.2) :
    ReferencesKnown rules (registry.registerWrapper wrapper) := by
  unfold Registry.registerWrapper
  split
  · exact known
  · intro name mentioned
    rcases Registry.mem_typeReferences.mp mentioned with object | ⟨found, listed, case⟩
    · exact known name (Registry.mem_typeReferences.mpr (.inl object))
    · rcases List.mem_append.mp listed with old | new
      · exact known name (Registry.mem_typeReferences.mpr (.inr ⟨found, old, case⟩))
      · obtain ⟨entry, member, mentioned⟩ := List.mem_singleton.mp new ▸ case
        exact known.available (available entry member) name mentioned

theorem ReferencesKnown.registerObject {rules : Rules} {registry : Registry}
    {object : SchemaObject} (known : ReferencesKnown rules registry)
    (available : ∀ member ∈ object.members, Available rules registry member.valueType) :
    ReferencesKnown rules (registry.registerObject object) := by
  unfold Registry.registerObject
  split
  · exact known
  · intro name mentioned
    rcases Registry.mem_typeReferences.mp mentioned with ⟨found, listed, field⟩ | wrapper
    · rcases List.mem_append.mp listed with old | new
      · exact known name (Registry.mem_typeReferences.mpr (.inl ⟨found, old, field⟩))
      · obtain ⟨member, belongs, mentioned⟩ := List.mem_singleton.mp new ▸ field
        exact known.available (available member belongs) name mentioned
    · exact known name (Registry.mem_typeReferences.mpr (.inr wrapper))

theorem ReferencesKnown.objectStep {rules : Rules} {strict : Bool} {before after : Registry}
    (step : ObjectStep rules strict before after) (known : ReferencesKnown rules before) :
    ReferencesKnown rules after := by
  cases step with
  | leftOut error _ => exact known
  | tolerated error _ => exact known
  | registered object available => exact known.registerObject available

theorem ReferencesKnown.objectSteps {rules : Rules} {strict : Bool} {before after : Registry}
    (steps : ReflTransGen (ObjectStep rules strict) before after)
    (known : ReferencesKnown rules before) : ReferencesKnown rules after :=
  steps_keep (fun _ _ => ReferencesKnown.objectStep) steps known

theorem ReferencesKnown.passStep {rules : Rules} {strict : Bool} {before after : Registry}
    (step : PassStep rules strict before after) (known : ReferencesKnown rules before) :
    ReferencesKnown rules after := by
  cases step with
  | oneOf step =>
    cases step with
    | leftOut error _ => exact known
    | tolerated error _ => exact known
    | ordinary name => exact known
    | registered wrapper available => exact known.registerWrapper available
  | object step => exact known.objectStep step
  | endpoint step =>
    cases step with
    | rolledBack middle steps =>
      rw [(objectSteps_growth steps).keepObjects_eq]
      exact known
    | tolerated error _ => exact known
    | registered middle endpoint steps _ =>
      have filled := known.objectSteps steps
      unfold Registry.registerEndpoint
      split <;> exact filled

theorem extract_referencesKnown (rules : Rules) (strict : Bool) (source : List Declaration) :
    ReferencesKnown rules (extract rules strict source).registry := by
  apply extract_keeps fun _ _ => ReferencesKnown.passStep
  obtain ⟨symbols, scopes, fresh⟩ := collectAllSymbols_frame source none {}
  rw [fresh]
  intro name mentioned
  cases mentioned

theorem extract_symbols (rules : Rules) (strict : Bool) (source : List Declaration) :
    (extract rules strict source).registry.symbols = (collectAllSymbols none {} source).symbols := by
  have kept : ∀ registry next, PassStep rules strict registry next →
      registry.symbols = (collectAllSymbols none {} source).symbols →
        next.symbols = (collectAllSymbols none {} source).symbols :=
    fun _ _ step same => step.growth.symbols.trans same
  exact extract_keeps kept rfl

/-- A reference that a type makes is to an object record, unless a keyword makes it. -/
theorem mem_records_of_mem_typeReferences {rules : Rules} {strict : Bool}
    {source : List Declaration} {name : String}
    (mentioned : name ∈ (extract rules strict source).registry.typeReferences) :
    name ∈ rules.references ∨
      ∃ extracted, (name, extracted) ∈ allObjectRecords .outer none source := by
  rcases extract_referencesKnown rules strict source name mentioned with keyword | symbol
  · exact .inl keyword
  · rw [extract_symbols] at symbol
    rcases collectAllSymbols_symbols .outer source none {} name symbol with old | record
    · cases old
    · exact .inr record

/-- What is left open after a strict run that returns: a reference of a keyword, or one to a record
that the walks pass over. -/
theorem reference_registered_or_passed_over {rules : Rules} {source : List Declaration}
    (success : (extract rules true source).raised = none) {name : String}
    (mentioned : name ∈ (extract rules true source).registry.references) :
    (extract rules true source).registry.hasObject name = true ∨
      name ∈ rules.references ∨ (name, false) ∈ allObjectRecords .outer none source := by
  rcases List.mem_append.mp mentioned with payload | typed
  · obtain ⟨endpoint, member, payload⟩ := List.mem_flatMap.mp payload
    have present : PayloadsPresent (extract rules true source).registry :=
      extract_keeps (fun _ _ => PayloadsPresent.passStep) (collectAllSymbols_payloadsPresent source)
    exact .inl (present endpoint member name payload)
  · rcases mem_records_of_mem_typeReferences typed with keyword | ⟨extracted, record⟩
    · exact .inr (.inl keyword)
    · cases extracted with
      | true => exact .inl ((extract_hasObject_iff success name).mpr (mem_extractedNames.mpr record))
      | false => exact .inr (.inr record)

/-- With plain keywords and endpoints apart nothing is left open. -/
theorem references_registered_of_endpointsApart {rules : Rules} {source : List Declaration}
    (success : (extract rules true source).raised = none) (plain : rules.references = [])
    (apart : allEndpointsApart false source = true) :
    ∀ name ∈ (extract rules true source).registry.references,
      (extract rules true source).registry.hasObject name = true := by
  intro name mentioned
  rcases reference_registered_or_passed_over success mentioned with present | keyword | passed
  · exact present
  · rw [plain] at keyword
    cases keyword
  · have outside : Place.IsMet false .outer := rfl
    have extracted := allObjectRecords_extracted none outside apart (name, false) passed
    cases extracted

/-- After a strict run that returns, all references are to registered objects exactly if every
object that is referred to and that a keyword mentions or the walks pass over is also extracted. So
they are whenever keywords mention no object and no endpoint lies in another or is itself an
object. -/
theorem strict_references_registered (rules : Rules) (source : List Declaration)
    (success : (extract rules true source).raised = none) :
    ((∀ name ∈ (extract rules true source).registry.references,
      (extract rules true source).registry.hasObject name = true) ↔
    ∀ name ∈ (extract rules true source).registry.references,
      name ∈ rules.references ∨ (name, false) ∈ allObjectRecords .outer none source →
        (name, true) ∈ allObjectRecords .outer none source) ∧
    (rules.references = [] → allEndpointsApart false source = true →
      ∀ name ∈ (extract rules true source).registry.references,
        (extract rules true source).registry.hasObject name = true) := by
  have registered : ∀ name, (extract rules true source).registry.hasObject name = true ↔
      (name, true) ∈ allObjectRecords .outer none source := by
    intro name
    rw [extract_hasObject_iff success, mem_extractedNames]
  refine ⟨⟨?_, ?_⟩, references_registered_of_endpointsApart success⟩
  · intro closed name mentioned _
    exact (registered name).mp (closed name mentioned)
  · intro extracted name mentioned
    rcases reference_registered_or_passed_over success mentioned with present | open_reference
    · exact present
    · exact (registered name).mpr (extracted name mentioned open_reference)

/-- An object directly inside an endpoint is extracted, and references to it are closed. -/
theorem nested_object_reference_registered :
    let source : List Declaration :=
      [.endpointOf "Outer" [.ofType "item" "Outer.Item"] [.objectOf "Item" []]]
    "Outer_Item" ∈ (extract {} true source).registry.references ∧
    ∀ name ∈ (extract {} true source).registry.references,
      (extract {} true source).registry.hasObject name = true := by
  intro source
  have success : (extract {} true source).raised = none := by decide +kernel
  have registered := (strict_references_registered {} source success).2
  exact ⟨by decide +kernel, registered (by decide +kernel) (by decide +kernel)⟩

/-- Not every reference is closed: the object referred to here lies in an endpoint inside an
endpoint, which no walk enters. -/
theorem nested_endpoint_reference_open :
    ¬ ∀ (rules : Rules) (source : List Declaration), (extract rules true source).raised = none →
      ∀ name ∈ (extract rules true source).registry.references,
        (extract rules true source).registry.hasObject name = true := by
  intro closed
  let source : List Declaration :=
    [.endpointOf "Outer" [.ofType "item" "Inner.Item"]
      [.endpointOf "Inner" [] [.objectOf "Item" []]]]
  have success : (extract {} true source).raised = none := by decide +kernel
  have mentioned : "Outer_Inner_Item" ∈ (extract {} true source).registry.references := by
    decide +kernel
  have absent : (extract {} true source).registry.hasObject "Outer_Inner_Item" = false := by
    decide +kernel
  have present := closed {} source success "Outer_Inner_Item" mentioned
  rw [absent] at present
  cases present

end ApiHandbook.Extraction
