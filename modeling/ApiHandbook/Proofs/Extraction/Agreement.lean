import ApiHandbook.Proofs.Extraction.Passes

/-!
# Strict and lenient runs

The two runs go through the same registries until a fatal error. There the strict run stops, and
the lenient one records the error and only adds to what it has. An endpoint that is rolled back in
the strict run is no exception: the lenient run starts from what it gives back.
-/
namespace ApiHandbook.Extraction
open Schema Source
open Registry (Growth)

/-- A strict run beside a lenient one. -/
inductive Agree : Except Stopped Registry → Except Stopped Registry → Prop
  | same (run : Except Stopped Registry) : Agree run run
  | parted (stopped : Stopped) (lenient : Except Stopped Registry)
      (grown : Growth (stopped.registry.record stopped.error) (registryLeft lenient)) :
      Agree (.error stopped) lenient

theorem growth_bind {before : Registry} {run : Except Stopped Registry}
    {next : Registry → Except Stopped Registry} (grown : Growth before (registryLeft run))
    (grows : ∀ registry, Growth registry (registryLeft (next registry))) :
    Growth before (registryLeft (run >>= next)) := by
  cases run with
  | error stopped => exact grown
  | ok registry => exact grown.trans (grows registry)

theorem Agree.bind {strict lenient : Except Stopped Registry}
    {next next' : Registry → Except Stopped Registry} (agree : Agree strict lenient)
    (rest : ∀ registry, Agree (next registry) (next' registry))
    (grows : ∀ registry, Growth registry (registryLeft (next' registry))) :
    Agree (strict >>= next) (lenient >>= next') := by
  cases agree with
  | same =>
    cases strict with
    | error stopped => exact .same _
    | ok registry => exact rest registry
  | parted stopped lenient grown => exact .parted stopped _ (growth_bind grown grows)

theorem Agree.tolerate {strict lenient : Except Stopped Registry} (agree : Agree strict lenient) :
    Agree (tolerate true strict) (tolerate false lenient) := by
  cases agree with
  | same =>
    cases strict with
    | ok registry => exact .same _
    | error stopped => exact .parted stopped _ (Growth.refl _)
  | parted stopped lenient grown =>
    cases lenient with
    | ok registry => exact .parted stopped _ grown
    | error found =>
      exact .parted stopped _
        (grown.trans (Registry.record_growth found.registry found.error).growth)

theorem extractOneOf_agree (rules : Rules) (scope : Option String) (registry : Registry)
    (declaration : Declaration) :
    Agree (extractOneOf rules true scope registry declaration)
      (extractOneOf rules false scope registry declaration) := by
  unfold extractOneOf
  split
  · exact .same _
  · exact .same _
  · rename_i error _
    cases error.isUnsupported with
    | true => exact .same _
    | false => exact .parted ⟨registry, error⟩ _ (Growth.refl _)

theorem walkAllOneOfs_growth (rules : Rules) (strict : Bool) (declarations : List Declaration)
    (scope : Option String) (registry : Registry) :
    Growth registry (registryLeft (walkAllOneOfs rules strict scope registry declarations)) :=
  (walkAllOneOfs_run rules strict declarations scope registry).growth fun _ _ => OneOfStep.growth

theorem walkAllOneOfs_agree (rules : Rules) (declarations : List Declaration)
    (scope : Option String) (registry : Registry) :
    Agree (walkAllOneOfs rules true scope registry declarations)
      (walkAllOneOfs rules false scope registry declarations) := by
  induction declarations using Declaration.forest_induction generalizing scope registry with
  | nil => exact .same _
  | cons heading children rest inner after =>
    rw [walkAllOneOfs_cons, walkAllOneOfs_cons]
    refine Agree.bind ?_ (after scope) (walkAllOneOfs_growth rules false rest scope)
    split
    · refine Agree.bind ?_ (inner _) (walkAllOneOfs_growth rules false children _)
      split
      · exact extractOneOf_agree rules scope registry _
      · exact .same _
    · exact .same _

theorem walkAllObjects_growth (rules : Rules) (strict : Bool) (declarations : List Declaration)
    (scope : Option String) (registry : Registry) :
    Growth registry (registryLeft (walkAllObjects rules strict scope registry declarations)) :=
  (walkAllObjects_run rules strict declarations scope registry).growth
    fun _ _ step => step.growth.growth

theorem finishObject_growth (rules : Rules) (name : String) (heading : Heading)
    (children : List Declaration) (registry : Registry) :
    Growth registry (registryLeft (finishObject rules name heading children registry)) :=
  (finishObject_run rules false name heading children registry).growth
    fun _ _ step => step.growth.growth

theorem walkAllObjects_agree (rules : Rules) (declarations : List Declaration)
    (scope : Option String) (registry : Registry) :
    Agree (walkAllObjects rules true scope registry declarations)
      (walkAllObjects rules false scope registry declarations) := by
  induction declarations using Declaration.forest_induction generalizing scope registry with
  | nil => exact .same _
  | cons heading children rest inner after =>
    rw [walkAllObjects, walkAllObjects, walkObjects, walkObjects]
    refine Agree.bind ?_ (after scope) (walkAllObjects_growth rules false rest scope)
    split
    · exact .same _
    · dsimp only
      split
      · apply Agree.tolerate
        exact (inner _ registry).bind (fun _ => .same _)
          (finishObject_growth rules _ heading children)
      · exact inner _ registry

theorem extractPayloads_growth (rules : Rules) (strict : Bool) (name : String)
    (children : List Declaration) (registry : Registry) :
    Growth registry (registryLeft (extractPayloads rules strict name registry children)) :=
  (extractPayloads_run rules strict name children registry).growth
    fun _ _ step => step.growth.growth

theorem extractPayloads_agree (rules : Rules) (name : String) (children : List Declaration)
    (registry : Registry) :
    Agree (extractPayloads rules true name registry children)
      (extractPayloads rules false name registry children) := by
  induction children generalizing registry with
  | nil => exact .same _
  | cons child rest ih =>
    rw [extractPayloads_cons, extractPayloads_cons]
    refine Agree.bind ?_ ih (extractPayloads_growth rules false name rest)
    split
    · obtain ⟨heading, children⟩ := child
      exact (walkAllObjects_agree rules children _ registry).bind (fun _ => .same _)
        (finishObject_growth rules _ heading children)
    · rw [walkObjects_eq_walkAllObjects, walkObjects_eq_walkAllObjects]
      exact walkAllObjects_agree rules [child] (some name) registry

/-- What a failed endpoint leaves in the strict run is part of what a lenient run has that went
on from the failure. -/
theorem rolledBack_growth {before failed after : Registry} {error : SchemaError}
    (extracted : Registry.ObjectGrowth before failed)
    (grown : Growth (failed.record error) after) (kept : before.objects <+: after.objects) :
    Growth ((failed.keepObjects (before.objects.map (·.name))).record error) after := by
  rw [extracted.keepObjects_eq]
  refine ⟨grown.symbols.trans extracted.symbols, grown.scopes.trans extracted.scopes, ?_, kept, ?_,
    grown.errors⟩
  · exact extracted.wrappers ▸ grown.wrappers
  · exact extracted.endpoints ▸ grown.endpoints

theorem extractEndpoint_agree (rules : Rules) (scope : Option String) (registry : Registry)
    (declaration : Declaration) :
    Agree (extractEndpoint rules true scope registry declaration)
      (extractEndpoint rules false scope registry declaration) := by
  obtain ⟨heading, children⟩ := declaration
  apply Agree.tolerate
  unfold parseEndpoint
  dsimp only
  split
  · exact .same _
  · rename_i endpoint _
    let name := qualifiedName scope heading.name
    have agree := extractPayloads_agree rules name children registry
    have strict_grown := objectSteps_growth (extractPayloads_run rules true name children registry).steps
    have lenient_grown :=
      objectSteps_growth (extractPayloads_run rules false name children registry).steps
    generalize extractPayloads rules true name registry children = strict at agree strict_grown ⊢
    generalize extractPayloads rules false name registry children = lenient at agree lenient_grown ⊢
    cases agree with
    | same => cases strict <;> exact .same _
    | parted stopped lenient grown =>
      cases lenient with
      | ok after =>
        apply Agree.parted
        exact (rolledBack_growth strict_grown grown lenient_grown.objects_kept).trans
          (Registry.registerEndpoint_growth after endpoint)
      | error found =>
        apply Agree.parted
        dsimp only [registryLeft] at strict_grown lenient_grown ⊢
        -- Both runs roll the endpoint back to the same objects.
        rw [lenient_grown.keepObjects_eq, strict_grown.keepObjects_eq]
        exact ⟨rfl, rfl, List.prefix_rfl, List.prefix_rfl, List.prefix_rfl, grown.errors⟩

theorem walkAllEndpoints_growth (rules : Rules) (strict : Bool) (declarations : List Declaration)
    (scope : Option String) (registry : Registry) :
    Growth registry (registryLeft (walkAllEndpoints rules strict scope registry declarations)) :=
  (walkAllEndpoints_run rules strict declarations scope registry).growth
    fun _ _ => EndpointStep.growth

theorem walkAllEndpoints_agree (rules : Rules) (declarations : List Declaration)
    (scope : Option String) (registry : Registry) :
    Agree (walkAllEndpoints rules true scope registry declarations)
      (walkAllEndpoints rules false scope registry declarations) := by
  induction declarations using Declaration.forest_induction generalizing scope registry with
  | nil => exact .same _
  | cons heading children rest inner after =>
    rw [walkAllEndpoints, walkAllEndpoints, walkEndpoints, walkEndpoints]
    refine Agree.bind ?_ (after scope) (walkAllEndpoints_growth rules false rest scope)
    split
    · exact .same _
    · split
      · exact extractEndpoint_agree rules scope registry _
      · exact inner _ registry

theorem runAll_agree (rules : Rules) (source : List Declaration) :
    Agree (runAll rules true source) (runAll rules false source) := by
  apply (walkAllOneOfs_agree rules source none _).bind
  · intro wrapped
    exact (walkAllObjects_agree rules source none wrapped).bind
      (walkAllEndpoints_agree rules source none) (walkAllEndpoints_growth rules false source none)
  · intro wrapped
    exact growth_bind (walkAllObjects_growth rules false source none wrapped)
      (walkAllEndpoints_growth rules false source none)

/-- Only errors that are not fatal have been recorded. -/
def Unharmed (registry : Registry) : Prop := ∀ error ∈ registry.errors, error.isFatal = false

theorem Unharmed.record {registry : Registry} {error : SchemaError} (unharmed : Unharmed registry)
    (harmless : error.isFatal = false) : Unharmed (registry.record error) := by
  intro found member
  rcases List.mem_append.mp member with old | new
  · exact unharmed found old
  · rw [List.mem_singleton.mp new]
    exact harmless

theorem Unharmed.registerObject {registry : Registry} (unharmed : Unharmed registry)
    (object : SchemaObject) : Unharmed (registry.registerObject object) := by
  unfold Registry.registerObject
  split
  · exact unharmed.record rfl
  · exact unharmed

theorem Unharmed.objectStep {rules : Rules} {registry next : Registry}
    (step : ObjectStep rules true registry next) (unharmed : Unharmed registry) :
    Unharmed next := by
  cases step with
  | leftOut error unsupported =>
    exact unharmed.record (SchemaError.isFatal_of_isUnsupported unsupported)
  | tolerated error lenient => cases lenient
  | registered object _ => exact unharmed.registerObject object

theorem Unharmed.objectSteps {rules : Rules} {registry after : Registry}
    (steps : Relation.ReflTransGen (ObjectStep rules true) registry after)
    (unharmed : Unharmed registry) : Unharmed after :=
  steps_keep (fun _ _ => Unharmed.objectStep) steps unharmed

/-- Strict runs record no fatal error: they stop at it. -/
theorem Unharmed.passStep {rules : Rules} {registry next : Registry}
    (step : PassStep rules true registry next) (unharmed : Unharmed registry) : Unharmed next := by
  cases step with
  | oneOf step =>
    cases step with
    | leftOut error unsupported =>
      exact unharmed.record (SchemaError.isFatal_of_isUnsupported unsupported)
    | tolerated error lenient => cases lenient
    | ordinary name => exact unharmed
    | registered wrapper _ =>
      unfold Registry.registerWrapper
      split
      · exact unharmed.record rfl
      · exact unharmed
  | object step => exact unharmed.objectStep step
  | endpoint step =>
    cases step with
    | rolledBack after steps =>
      have extracted := unharmed.objectSteps steps
      exact extracted
    | tolerated error lenient => cases lenient
    | registered after endpoint steps _ =>
      have extracted := unharmed.objectSteps steps
      unfold Registry.registerEndpoint
      split
      · exact extracted.record rfl
      · exact extracted

theorem extract_strict_unharmed (rules : Rules) (source : List Declaration) :
    Unharmed (extract rules true source).registry := by
  apply extract_keeps fun _ _ => Unharmed.passStep
  obtain ⟨symbols, scopes, fresh⟩ := collectAllSymbols_frame source none {}
  rw [fresh]
  intro error member
  cases member

/-- Strict and lenient extraction agree up to the first fatal error. The strict run returns
exactly if the lenient run, which always returns, records no fatal error, and then both end in the
same registry. Otherwise the errors of the strict run with the one it raises are the first errors
of the lenient run, and no table of the lenient run lacks or reorders anything of the strict one. -/
theorem strict_lenient_agree (rules : Rules) (source : List Declaration) :
    (extract rules false source).raised = none ∧
    ((extract rules true source).raised = none ↔
      ∀ error ∈ (extract rules false source).registry.errors, error.isFatal = false) ∧
    ((extract rules true source).raised = none →
      (extract rules true source).registry = (extract rules false source).registry) ∧
    ∀ error, (extract rules true source).raised = some error →
      (extract rules true source).registry.errors ++ [error] <+:
        (extract rules false source).registry.errors ∧
      (extract rules true source).registry.symbols =
        (extract rules false source).registry.symbols ∧
      (extract rules true source).registry.scopes =
        (extract rules false source).registry.scopes ∧
      (extract rules true source).registry.wrappers <+:
        (extract rules false source).registry.wrappers ∧
      (extract rules true source).registry.objects <+:
        (extract rules false source).registry.objects ∧
      (extract rules true source).registry.endpoints <+:
        (extract rules false source).registry.endpoints := by
  have unharmed := extract_strict_unharmed rules source
  have fatal := (runAll_run rules true source).fatal
  have agree := runAll_agree rules source
  obtain ⟨after, finished⟩ := runAll_lenient rules source
  refine ⟨extract_lenient_raised rules source, ?_⟩
  rw [(extract_eq_runAll rules true source).1] at unharmed ⊢
  rw [(extract_eq_runAll rules true source).2, (extract_eq_runAll rules false source).1]
  rw [finished] at agree ⊢
  cases strict : runAll rules true source with
  | ok registry =>
    rw [strict] at agree unharmed
    cases agree
    exact ⟨⟨fun _ => unharmed, fun _ => rfl⟩, fun _ => rfl, nofun⟩
  | error stopped =>
    rw [strict] at agree
    cases agree with
    | parted _ _ grown =>
      have raised : stopped.error ∈ after.errors :=
        grown.errors.subset (List.mem_append_right _ (List.mem_singleton_self _))
      refine ⟨⟨nofun, fun harmless => ?_⟩, nofun, fun error stop => ?_⟩
      · have mild := harmless stopped.error raised
        rw [fatal stopped strict] at mild
        cases mild
      · cases stop
        exact ⟨grown.errors, grown.symbols.symm, grown.scopes.symm, grown.wrappers, grown.objects,
          grown.endpoints⟩

/-- Behind an endpoint that fails, only the lenient run goes on to the next one. -/
theorem lenient_run_goes_on :
    let source : List Declaration :=
      [.endpointOf "Failing" [.ofType "item" "Missing.Item"] [], .endpointOf "Next" [] []]
    (extract {} true source).registry.errors ++
        [.unresolved "Item" (some "Missing") (some "Failing_Body") (some "item")] <+:
      (extract {} false source).registry.errors ∧
    (extract {} true source).registry.endpoints.map (·.name) = [] ∧
    (extract {} false source).registry.endpoints.map (·.name) = ["Next"] := by
  intro source
  have raised : (extract {} true source).raised =
      some (.unresolved "Item" (some "Missing") (some "Failing_Body") (some "item")) := by
    decide +kernel
  have agree := (strict_lenient_agree {} source).2.2.2 _ raised
  exact ⟨agree.1, by decide +kernel, by decide +kernel⟩

end ApiHandbook.Extraction
