import ApiHandbook.Proofs.Registry.Wrappers
import ApiHandbook.Proofs.Extraction.References
import ApiHandbook.Proofs.Source.Occurrences

/-!
# Wrappers after an extraction

Wrappers are copied into later wrappers and into members. In every state that a run leaves, each
copy is still the registered wrapper of its name, and a wrapper holds only wrappers that were
registered before it: so unfolding wrappers ends.
-/
namespace ApiHandbook.Extraction
open Schema Source Text
open Relation (ReflTransGen)

/-! ## Copies of wrappers -/

structure Coherent (registry : Registry) : Prop where
  distinct : (registry.wrappers.map (·.name)).Nodup
  earlier : ∀ (place : Nat) (outer : Wrapper), registry.wrappers[place]? = some outer →
    ∀ wrapper ∈ caseWrappers outer.cases,
      ∃ before < place, registry.wrappers[before]? = some wrapper
  members : ∀ object ∈ registry.objects, ∀ member ∈ object.members,
    ∀ wrapper ∈ member.valueType.wrappers, wrapper ∈ registry.wrappers

theorem Coherent.nested {registry : Registry} (coherent : Coherent registry) {outer wrapper : Wrapper}
    (registered : outer ∈ registry.wrappers) (embedded : wrapper ∈ caseWrappers outer.cases) :
    wrapper ∈ registry.wrappers := by
  obtain ⟨place, outer_eq⟩ := List.mem_iff_getElem?.mp registered
  obtain ⟨before, _, wrapper_eq⟩ := coherent.earlier place outer outer_eq wrapper embedded
  exact List.mem_of_getElem? wrapper_eq

theorem Coherent.available {rules : Rules} {registry : Registry} {type : ValueType}
    (coherent : Coherent registry) (plain : rules.IsPlain)
    (available : Available rules registry type) :
    ∀ wrapper ∈ type.wrappers, wrapper ∈ registry.wrappers := by
  intro wrapper embedded
  rcases available with rfl | ⟨shape, scope, declaration, field, required, resolved⟩
  · cases embedded
  · obtain ⟨outer, registered, same | inside⟩ :=
      Registry.resolveShape_wrappers plain resolved embedded
    · rw [same]
      exact registered
    · exact coherent.nested registered inside

theorem Coherent.registerWrapper {rules : Rules} {registry : Registry} {wrapper : Wrapper}
    (coherent : Coherent registry) (plain : rules.IsPlain)
    (available : ∀ entry ∈ wrapper.cases, Available rules registry entry.2) :
    Coherent (registry.registerWrapper wrapper) := by
  unfold Registry.registerWrapper
  split
  · exact ⟨coherent.distinct, coherent.earlier, coherent.members⟩
  · rename_i absent
    have new : wrapper.name ∉ registry.wrappers.map (·.name) := by
      simpa [Registry.hasWrapper] using absent
    refine ⟨?_, ?_, ?_⟩
    · rw [List.map_append, List.map_singleton, List.nodup_append]
      refine ⟨coherent.distinct, by simp, ?_⟩
      intro old listed name same
      rw [List.mem_singleton.mp same]
      rintro rfl
      exact new listed
    · intro place outer outer_eq inner embedded
      have kept : ∀ before, before < registry.wrappers.length →
          (registry.wrappers ++ [wrapper])[before]? = registry.wrappers[before]? :=
        fun before inside => List.getElem?_append_left inside
      by_cases old : place < registry.wrappers.length
      · rw [kept place old] at outer_eq
        obtain ⟨before, less, inner_eq⟩ := coherent.earlier place outer outer_eq inner embedded
        exact ⟨before, less, (kept before (Nat.lt_trans less old)).trans inner_eq⟩
      · -- The new wrapper stands last, and what it holds was there when it was built.
        have last : place = registry.wrappers.length ∧ outer = wrapper := by
          rw [List.getElem?_append_right (by omega), List.getElem?_singleton] at outer_eq
          split at outer_eq
          · cases outer_eq
            exact ⟨by omega, rfl⟩
          · cases outer_eq
        rw [last.2] at embedded
        obtain ⟨entry, listed, embedded⟩ := mem_caseWrappers.mp embedded
        have present := coherent.available plain (available entry listed) inner embedded
        obtain ⟨before, inner_eq⟩ := List.mem_iff_getElem?.mp present
        have less := (List.getElem?_eq_some_iff.mp inner_eq).1
        exact ⟨before, last.1 ▸ less, (kept before less).trans inner_eq⟩
    · intro object listed member belongs inner embedded
      exact List.mem_append_left _ (coherent.members object listed member belongs inner embedded)

theorem Coherent.registerObject {rules : Rules} {registry : Registry} {object : SchemaObject}
    (coherent : Coherent registry) (plain : rules.IsPlain)
    (available : ∀ member ∈ object.members, Available rules registry member.valueType) :
    Coherent (registry.registerObject object) := by
  unfold Registry.registerObject
  split
  · exact ⟨coherent.distinct, coherent.earlier, coherent.members⟩
  · refine ⟨coherent.distinct, coherent.earlier, ?_⟩
    intro found listed member belongs
    rcases List.mem_append.mp listed with old | new
    · exact coherent.members found old member belongs
    · rw [List.mem_singleton.mp new] at belongs
      exact coherent.available plain (available member belongs)

theorem Coherent.objectStep {rules : Rules} {strict : Bool} {before after : Registry}
    (plain : rules.IsPlain) (step : ObjectStep rules strict before after)
    (coherent : Coherent before) : Coherent after := by
  cases step with
  | leftOut error _ => exact ⟨coherent.distinct, coherent.earlier, coherent.members⟩
  | tolerated error _ => exact ⟨coherent.distinct, coherent.earlier, coherent.members⟩
  | registered object available => exact coherent.registerObject plain available

theorem Coherent.objectSteps {rules : Rules} {strict : Bool} {before after : Registry}
    (plain : rules.IsPlain) (steps : ReflTransGen (ObjectStep rules strict) before after)
    (coherent : Coherent before) : Coherent after :=
  steps_keep (fun _ _ => Coherent.objectStep plain) steps coherent

theorem Coherent.passStep {rules : Rules} {strict : Bool} {before after : Registry}
    (plain : rules.IsPlain) (step : PassStep rules strict before after)
    (coherent : Coherent before) : Coherent after := by
  cases step with
  | oneOf step =>
    cases step with
    | leftOut error _ => exact ⟨coherent.distinct, coherent.earlier, coherent.members⟩
    | tolerated error _ => exact ⟨coherent.distinct, coherent.earlier, coherent.members⟩
    | ordinary name => exact ⟨coherent.distinct, coherent.earlier, coherent.members⟩
    | registered wrapper available => exact coherent.registerWrapper plain available
  | object step => exact coherent.objectStep plain step
  | endpoint step =>
    cases step with
    | rolledBack middle steps =>
      rw [(objectSteps_growth steps).keepObjects_eq]
      exact ⟨coherent.distinct, coherent.earlier, coherent.members⟩
    | tolerated error _ => exact ⟨coherent.distinct, coherent.earlier, coherent.members⟩
    | registered middle endpoint steps _ =>
      have filled := coherent.objectSteps plain steps
      unfold Registry.registerEndpoint
      split <;> exact ⟨filled.distinct, filled.earlier, filled.members⟩

/-- A wrapper of a table with distinct names is what its name finds. -/
theorem Coherent.find? {registry : Registry} (coherent : Coherent registry) {wrapper : Wrapper}
    (registered : wrapper ∈ registry.wrappers) :
    registry.wrappers.find? (·.name == wrapper.name) = some wrapper := by
  obtain ⟨before, after, split⟩ := List.append_of_mem registered
  rw [List.find?_eq_some_iff_append]
  refine ⟨by simp, before, after, split, ?_⟩
  intro other listed
  have names := coherent.distinct
  rw [split, List.map_append, List.nodup_append] at names
  have different := names.2.2 other.name (List.mem_map_of_mem listed) wrapper.name (by simp)
  simpa using different

/-! ## Where wrappers come from -/

/-- The name that a case gets: its label if there is one, or its own name, in snake case. -/
def caseName (case : Declaration) : String :=
  snakeCase ((SchemaError.given (case.heading.parameters.head?.bind (·.label))).getD case.name)

/-- A wrapper made of an enumeration in which every case has one payload. -/
structure WrapperOf (enumeration : Occurrence) (wrapper : Wrapper) : Prop where
  oneOf : enumeration.heading.isOneOf = true
  name : enumeration.name = wrapper.name
  inhabited : Declaration.ofKind .case enumeration.children ≠ []
  single : ∀ case ∈ Declaration.ofKind .case enumeration.children,
    case.heading.parameters.length = 1
  cases : wrapper.cases.map (·.1) =
    (Declaration.ofKind .case enumeration.children).map caseName

/-- A run after which every wrapper was there before or is that of one of some enumerations. -/
def AddsFrom (registry : Registry) (types : List Occurrence) (run : Except Stopped Registry) :
    Prop :=
  ∀ wrapper ∈ (registryLeft run).wrappers,
    wrapper ∈ registry.wrappers ∨ ∃ enumeration ∈ types, WrapperOf enumeration wrapper

theorem AddsFrom.nothing {registry after : Registry} (types : List Occurrence)
    (same : after.wrappers = registry.wrappers) : AddsFrom registry types (.ok after) := by
  intro wrapper registered
  exact .inl (same ▸ registered)

theorem AddsFrom.bind {registry : Registry} {types others : List Occurrence}
    {run : Except Stopped Registry} {next : Registry → Except Stopped Registry}
    (first : AddsFrom registry types run)
    (rest : ∀ middle, AddsFrom middle others (next middle)) :
    AddsFrom registry (types ++ others) (run >>= next) := by
  have widened : ∀ wrapper, (wrapper ∈ registry.wrappers ∨
        ∃ enumeration ∈ types, WrapperOf enumeration wrapper) →
      wrapper ∈ registry.wrappers ∨
        ∃ enumeration ∈ types ++ others, WrapperOf enumeration wrapper := by
    rintro wrapper (old | ⟨enumeration, listed, made⟩)
    · exact .inl old
    · exact .inr ⟨enumeration, List.mem_append_left _ listed, made⟩
  intro wrapper registered
  cases run with
  | error stopped => exact widened wrapper (first wrapper registered)
  | ok middle =>
    rcases rest middle wrapper registered with old | ⟨enumeration, listed, made⟩
    · exact widened wrapper (first wrapper old)
    · exact .inr ⟨enumeration, List.mem_append_right _ listed, made⟩

theorem EndpointStep.types {rules : Rules} {strict : Bool} {before after : Registry}
    (step : EndpointStep rules strict before after) : Registry.SameTypes before after := by
  cases step with
  | rolledBack middle steps =>
    rw [(objectSteps_growth steps).keepObjects_eq]
    exact ⟨rfl, rfl, rfl⟩
  | tolerated error _ => exact ⟨rfl, rfl, rfl⟩
  | registered middle endpoint steps _ =>
    refine (objectSteps_growth steps).toSameTypes.trans ?_
    unfold Registry.registerEndpoint
    split <;> exact ⟨rfl, rfl, rfl⟩

end ApiHandbook.Extraction
