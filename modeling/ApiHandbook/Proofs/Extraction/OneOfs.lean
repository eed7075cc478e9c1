import ApiHandbook.Extraction.OneOfs
import ApiHandbook.Proofs.Extraction.Basic

/-!
# Steps of the walk over enumerations

The walk registers wrappers whose payload types can be resolved, notes ordinary enumerations and
records errors.
-/
namespace ApiHandbook.Extraction
open Schema Source

inductive OneOfStep (rules : Rules) (strict : Bool) : Registry → Registry → Prop
  | leftOut (registry : Registry) (error : SchemaError) (unsupported : error.isUnsupported = true) :
      OneOfStep rules strict registry (registry.record error)
  | tolerated (registry : Registry) (error : SchemaError) (lenient : strict = false) :
      OneOfStep rules strict registry (registry.record error)
  | ordinary (registry : Registry) (name : String) :
      OneOfStep rules strict registry (registry.addOrdinaryEnum name)
  | registered (registry : Registry) (wrapper : Wrapper)
      (available : ∀ entry ∈ wrapper.cases, Available rules registry entry.2) :
      OneOfStep rules strict registry (registry.registerWrapper wrapper)

theorem OneOfStep.growth {rules : Rules} {strict : Bool} {before after : Registry}
    (step : OneOfStep rules strict before after) : Registry.Growth before after := by
  cases step with
  | leftOut error _ => exact (Registry.record_growth before error).growth
  | tolerated error _ => exact (Registry.record_growth before error).growth
  | ordinary name => exact Registry.addOrdinaryEnum_growth before name
  | registered wrapper _ => exact Registry.registerWrapper_growth before wrapper

theorem resolveCase_available {rules : Rules} {registry : Registry} {wrapper : String}
    {case : Heading} {parameter : CaseParameter} {entry : String × ValueType}
    (resolved : resolveCase rules registry wrapper case parameter = .ok entry) :
    Available rules registry entry.2 := by
  obtain ⟨typed, shape_eq, made⟩ := ok_of_bind resolved
  cases made
  exact .inr ⟨_, _, _, _, typed.2, shape_eq⟩

theorem resolveCase_error_fatal {rules : Rules} {registry : Registry} {wrapper : String}
    {case : Heading} {parameter : CaseParameter} {error : SchemaError}
    (failed : resolveCase rules registry wrapper case parameter = .error error)
    (supported : error.isUnsupported = false) : error.isFatal = true := by
  rcases error_of_bind failed with shape_eq | ⟨typed, _, made⟩
  · exact resolveShape_error_fatal shape_eq supported
  · cases made

theorem resolveCases_available {rules : Rules} {registry : Registry} {wrapper : String}
    {payloads : List (Heading × CaseParameter)} {cases : List (String × ValueType)}
    (resolved : resolveCases rules registry wrapper payloads = .ok cases) :
    ∀ entry ∈ cases, Available rules registry entry.2 := by
  induction payloads generalizing cases with
  | nil =>
    cases resolved
    simp
  | cons payload rest ih =>
    obtain ⟨first, first_eq, resolved⟩ := ok_of_bind resolved
    obtain ⟨others, rest_eq, made⟩ := ok_of_bind resolved
    cases made
    intro entry member
    rcases List.mem_cons.mp member with rfl | member
    · exact resolveCase_available first_eq
    · exact ih rest_eq entry member

theorem resolveCases_error_fatal {rules : Rules} {registry : Registry} {wrapper : String}
    {payloads : List (Heading × CaseParameter)} {error : SchemaError}
    (failed : resolveCases rules registry wrapper payloads = .error error)
    (supported : error.isUnsupported = false) : error.isFatal = true := by
  induction payloads with
  | nil => cases failed
  | cons payload rest ih =>
    rcases error_of_bind failed with first_eq | ⟨first, _, failed⟩
    · exact resolveCase_error_fatal first_eq supported
    · rcases error_of_bind failed with rest_eq | ⟨others, _, made⟩
      · exact ih rest_eq
      · cases made

theorem buildWrapper_available {rules : Rules} {registry : Registry} {scope : Option String}
    {declaration : Declaration} {wrapper : Wrapper}
    (built : buildWrapper rules registry scope declaration = .ok (some wrapper)) :
    ∀ entry ∈ wrapper.cases, Available rules registry entry.2 := by
  obtain ⟨heading, children⟩ := declaration
  unfold buildWrapper at built
  dsimp only at built
  split at built
  · cases built
  · split at built
    · cases built
    · obtain ⟨cases, resolved, made⟩ := ok_of_bind built
      cases made
      exact resolveCases_available resolved

theorem buildWrapper_error_fatal {rules : Rules} {registry : Registry} {scope : Option String}
    {declaration : Declaration} {error : SchemaError}
    (failed : buildWrapper rules registry scope declaration = .error error)
    (supported : error.isUnsupported = false) : error.isFatal = true := by
  obtain ⟨heading, children⟩ := declaration
  unfold buildWrapper at failed
  dsimp only at failed
  split at failed
  · cases failed
  · split at failed
    · cases failed
    · rcases error_of_bind failed with resolved | ⟨cases, _, made⟩
      · exact resolveCases_error_fatal resolved supported
      · cases made

theorem extractOneOf_run (rules : Rules) (strict : Bool) (scope : Option String)
    (registry : Registry) (declaration : Declaration) :
    RunBy (OneOfStep rules strict) registry
      (extractOneOf rules strict scope registry declaration) := by
  unfold extractOneOf
  split
  · rename_i wrapper built
    exact ⟨.single (.registered registry wrapper (buildWrapper_available built)), nofun⟩
  · exact ⟨.single (.ordinary registry _), nofun⟩
  · rename_i error failed
    cases supported : error.isUnsupported with
    | true =>
      rw [Bool.not_true, Bool.and_false]
      exact ⟨.single (.leftOut registry error supported), nofun⟩
    | false =>
      rw [Bool.not_false, Bool.and_true]
      apply RunBy.tolerate (fun lenient registry error => .tolerated registry error lenient)
      exact .failed .refl (buildWrapper_error_fatal failed supported)

/-- The walk as a chain of steps; the elaborated definition has the rest in both branches. -/
theorem walkAllOneOfs_cons (rules : Rules) (strict : Bool) (scope : Option String)
    (registry : Registry) (heading : Heading) (children rest : List Declaration) :
    walkAllOneOfs rules strict scope registry (.node heading children :: rest) =
      (if heading.isType then
        (if heading.isOneOf then extractOneOf rules strict scope registry (.node heading children)
          else .ok registry) >>= fun registry =>
        walkAllOneOfs rules strict (some (qualifiedName scope heading.name)) registry children
      else .ok registry) >>= fun registry => walkAllOneOfs rules strict scope registry rest := by
  rw [walkAllOneOfs, walkOneOfs]
  cases heading.isOneOf <;> rfl

theorem walkAllOneOfs_run (rules : Rules) (strict : Bool) (declarations : List Declaration)
    (scope : Option String) (registry : Registry) :
    RunBy (OneOfStep rules strict) registry
      (walkAllOneOfs rules strict scope registry declarations) := by
  induction declarations using Declaration.forest_induction generalizing scope registry with
  | nil => exact .done registry
  | cons heading children rest inner after =>
    rw [walkAllOneOfs_cons]
    refine RunBy.bind ?_ (after scope)
    split
    · refine RunBy.bind ?_ (inner _)
      split
      · exact extractOneOf_run rules strict scope registry _
      · exact .done registry
    · exact .done registry

theorem walkAllOneOfs_lenient (rules : Rules) (declarations : List Declaration)
    (scope : Option String) (registry : Registry) :
    ∃ after, walkAllOneOfs rules false scope registry declarations = .ok after := by
  induction declarations using Declaration.forest_induction generalizing scope registry with
  | nil => exact ⟨registry, rfl⟩
  | cons heading children rest inner after =>
    rw [walkAllOneOfs_cons]
    apply ok_bind _ (after scope)
    split
    · apply ok_bind _ (inner _)
      split
      · unfold extractOneOf
        split
        · exact ⟨_, rfl⟩
        · exact ⟨_, rfl⟩
        · exact tolerate_lenient _
      · exact ⟨registry, rfl⟩
    · exact ⟨registry, rfl⟩

end ApiHandbook.Extraction
