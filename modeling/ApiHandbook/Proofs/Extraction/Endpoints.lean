import ApiHandbook.Extraction.Endpoints
import ApiHandbook.Proofs.Extraction.Objects
import ApiHandbook.Proofs.Registry.References

/-!
# Steps of the walk over endpoints

Seen from outside, an endpoint is one step: its objects and itself are registered, or the objects
are rolled back and only errors stay.
-/
namespace ApiHandbook.Extraction
open Schema Source
open Relation (ReflTransGen)

/-- The walk as a chain of steps; the elaborated definition has the rest in both branches. -/
theorem extractPayloads_cons (rules : Rules) (strict : Bool) (name : String) (registry : Registry)
    (child : Declaration) (rest : List Declaration) :
    extractPayloads rules strict name registry (child :: rest) =
      (if child.heading.isObject then extractObject rules strict (some name) registry child
        else walkObjects rules strict (some name) registry child) >>= fun registry =>
      extractPayloads rules strict name registry rest := by
  rw [extractPayloads]
  cases child.heading.isObject <;> rfl

theorem extractPayloads_run (rules : Rules) (strict : Bool) (name : String)
    (children : List Declaration) (registry : Registry) :
    RunBy (ObjectStep rules strict) registry
      (extractPayloads rules strict name registry children) := by
  induction children generalizing registry with
  | nil => exact .done registry
  | cons child rest ih =>
    rw [extractPayloads_cons]
    refine RunBy.bind ?_ ih
    split
    · exact extractObject_run rules strict (some name) registry child
    · rw [walkObjects_eq_walkAllObjects]
      exact walkAllObjects_run rules strict [child] (some name) registry

theorem registerObject_hasObject (registry : Registry) (object : SchemaObject) :
    (registry.registerObject object).hasObject object.name = true := by
  unfold Registry.registerObject
  split
  · assumption
  · simp [Registry.hasObject]

theorem extractObject_registers {rules : Rules} {strict : Bool} {scope : Option String}
    {before after : Registry} {declaration : Declaration}
    (extracted : extractObject rules strict scope before declaration = .ok after) :
    after.hasObject (qualifiedName scope declaration.name) = true := by
  obtain ⟨heading, children⟩ := declaration
  obtain ⟨registry, _, finished⟩ := ok_of_bind extracted
  obtain ⟨⟨after, members⟩, _, made⟩ := ok_of_bind finished
  cases made
  exact registerObject_hasObject _ _

/-- Each object directly inside an endpoint is registered when all of them have been extracted. -/
theorem extractPayloads_registers {rules : Rules} {strict : Bool} {name : String}
    {children : List Declaration} {before after : Registry}
    (extracted : extractPayloads rules strict name before children = .ok after) :
    ∀ child ∈ children, child.heading.isObject = true →
      after.hasObject (qualifiedName (some name) child.name) = true := by
  induction children generalizing before with
  | nil => simp
  | cons first rest ih =>
    rw [extractPayloads_cons] at extracted
    obtain ⟨middle, first_eq, rest_eq⟩ := ok_of_bind extracted
    intro child member isObject
    rcases List.mem_cons.mp member with rfl | later
    · rw [if_pos isObject] at first_eq
      have grown := objectSteps_growth ((extractPayloads_run ..).finished rest_eq)
      exact Registry.hasObject_mono grown.objects_kept (extractObject_registers first_eq)
    · exact ih rest_eq child later isObject

theorem readMethod_error_fatal {name : String} {children : List Declaration} {error : SchemaError}
    (failed : readMethod name children = .error error) : error.isFatal = true := by
  unfold readMethod at failed
  dsimp only at failed
  split at failed
  · split at failed <;> cases failed
    rfl
  · split at failed <;> cases failed
    rfl
  · cases failed
    rfl

theorem readRoute_error_fatal {rules : Rules} {name : String} {children : List Declaration}
    {error : SchemaError} (failed : readRoute rules name children = .error error) :
    error.isFatal = true := by
  unfold readRoute at failed
  split at failed <;> cases failed
  rfl

theorem readEndpoint_error_fatal {rules : Rules} {name : String} {children : List Declaration}
    {error : SchemaError} (failed : readEndpoint rules name children = .error error) :
    error.isFatal = true := by
  rcases error_of_bind failed with method | ⟨method, _, failed⟩
  · exact readMethod_error_fatal method
  · rcases error_of_bind failed with route | ⟨path, _, failed⟩
    · exact readRoute_error_fatal route
    · split at failed <;> cases failed
      rfl

/-- An endpoint that can be read names its four payloads, and each has a record of its own. -/
theorem readEndpoint_ok {rules : Rules} {name : String} {children : List Declaration}
    {endpoint : Endpoint} (read : readEndpoint rules name children = .ok endpoint) :
    endpoint.payloads = payloadRecords.map (qualifiedName (some name)) ∧
      ∀ record ∈ payloadRecords, ∃ child ∈ children,
        child.heading.isObject = true ∧ child.name = record := by
  obtain ⟨method, _, read⟩ := ok_of_bind read
  obtain ⟨path, _, read⟩ := ok_of_bind read
  split at read
  · cases read
  · rename_i complete
    cases read
    refine ⟨rfl, fun record member => ?_⟩
    have nested := List.find?_eq_none.mp complete record member
    simpa [and_assoc] using nested

inductive EndpointStep (rules : Rules) (strict : Bool) : Registry → Registry → Prop
  | rolledBack (registry after : Registry)
      (steps : ReflTransGen (ObjectStep rules strict) registry after) :
      EndpointStep rules strict registry (after.keepObjects (registry.objects.map (·.name)))
  | tolerated (registry : Registry) (error : SchemaError) (lenient : strict = false) :
      EndpointStep rules strict registry (registry.record error)
  | registered (registry after : Registry) (endpoint : Endpoint)
      (steps : ReflTransGen (ObjectStep rules strict) registry after)
      (payloads : ∀ name ∈ endpoint.payloads, after.hasObject name = true) :
      EndpointStep rules strict registry (after.registerEndpoint endpoint)

theorem EndpointStep.growth {rules : Rules} {strict : Bool} {before after : Registry}
    (step : EndpointStep rules strict before after) : Registry.Growth before after := by
  cases step with
  | rolledBack middle steps =>
    have grown := objectSteps_growth steps
    rw [grown.keepObjects_eq]
    exact ⟨rfl, rfl, List.prefix_rfl, List.prefix_rfl, List.prefix_rfl, grown.errors⟩
  | tolerated error _ => exact (Registry.record_growth before error).growth
  | registered middle endpoint steps _ =>
    exact (objectSteps_growth steps).growth.trans (Registry.registerEndpoint_growth middle endpoint)

/-- A parsed endpoint has its objects extracted. -/
theorem extractPayloads_of_parseEndpoint {rules : Rules} {strict : Bool} {scope : Option String}
    {before after : Registry} {heading : Heading} {children : List Declaration} {endpoint : Endpoint}
    (parsed : parseEndpoint rules strict scope before (.node heading children) =
      .ok (after, endpoint)) :
    readEndpoint rules (qualifiedName scope heading.name) children = .ok endpoint ∧
      extractPayloads rules strict (qualifiedName scope heading.name) before children =
        .ok after := by
  unfold parseEndpoint at parsed
  dsimp only at parsed
  split at parsed
  · cases parsed
  · rename_i found read
    split at parsed
    · rename_i registry extracted
      cases parsed
      exact ⟨read, extracted⟩
    · cases parsed

theorem parseEndpoint_ok {rules : Rules} {strict : Bool} {scope : Option String}
    {before after : Registry} {declaration : Declaration} {endpoint : Endpoint}
    (parsed : parseEndpoint rules strict scope before declaration = .ok (after, endpoint)) :
    ReflTransGen (ObjectStep rules strict) before after ∧
      ∀ name ∈ endpoint.payloads, after.hasObject name = true := by
  obtain ⟨heading, children⟩ := declaration
  obtain ⟨read, extracted⟩ := extractPayloads_of_parseEndpoint parsed
  obtain ⟨names, records⟩ := readEndpoint_ok read
  refine ⟨(extractPayloads_run ..).finished extracted, fun name member => ?_⟩
  rw [names] at member
  obtain ⟨record, listed, rfl⟩ := List.mem_map.mp member
  obtain ⟨child, belongs, isObject, rfl⟩ := records record listed
  exact extractPayloads_registers extracted child belongs isObject

/-- A failed endpoint leaves the registry of before without the objects it had added. -/
theorem parseEndpoint_error {rules : Rules} {strict : Bool} {scope : Option String}
    {before : Registry} {declaration : Declaration} {stopped : Stopped}
    (failed : parseEndpoint rules strict scope before declaration = .error stopped) :
    stopped.error.isFatal = true ∧ ∃ after, ReflTransGen (ObjectStep rules strict) before after ∧
      stopped.registry = after.keepObjects (before.objects.map (·.name)) := by
  obtain ⟨heading, children⟩ := declaration
  unfold parseEndpoint at failed
  dsimp only at failed
  split at failed
  · rename_i error read
    cases failed
    exact ⟨readEndpoint_error_fatal read, before, .refl,
      (Registry.ObjectGrowth.refl before).keepObjects_eq.symm⟩
  · split at failed
    · cases failed
    · rename_i found extracted
      cases failed
      have run := extractPayloads_run rules strict (qualifiedName scope heading.name) children before
      rw [extracted] at run
      exact ⟨run.fatal found rfl, found.registry, run.steps, rfl⟩

theorem extractEndpoint_run (rules : Rules) (strict : Bool) (scope : Option String)
    (registry : Registry) (declaration : Declaration) :
    RunBy (EndpointStep rules strict) registry
      (extractEndpoint rules strict scope registry declaration) := by
  unfold extractEndpoint
  apply RunBy.tolerate (fun lenient registry error => .tolerated registry error lenient)
  cases parsed : parseEndpoint rules strict scope registry declaration with
  | error stopped =>
    obtain ⟨fatal, after, steps, left⟩ := parseEndpoint_error parsed
    refine RunBy.failed ?_ fatal
    rw [left]
    exact .single (.rolledBack registry after steps)
  | ok result =>
    obtain ⟨after, endpoint⟩ := result
    obtain ⟨steps, payloads⟩ := parseEndpoint_ok parsed
    exact ⟨.single (.registered registry after endpoint steps payloads), nofun⟩

theorem walkAllEndpoints_run (rules : Rules) (strict : Bool) (declarations : List Declaration)
    (scope : Option String) (registry : Registry) :
    RunBy (EndpointStep rules strict) registry
      (walkAllEndpoints rules strict scope registry declarations) := by
  induction declarations using Declaration.forest_induction generalizing scope registry with
  | nil => exact .done registry
  | cons heading children rest inner after =>
    rw [walkAllEndpoints, walkEndpoints]
    refine RunBy.bind ?_ (after scope)
    split
    · exact .done registry
    · split
      · exact extractEndpoint_run rules strict scope registry _
      · exact inner _ registry

theorem walkEndpoints_eq_walkAllEndpoints (rules : Rules) (strict : Bool) (scope : Option String)
    (registry : Registry) (declaration : Declaration) :
    walkEndpoints rules strict scope registry declaration =
      walkAllEndpoints rules strict scope registry [declaration] := by
  rw [walkAllEndpoints]
  cases walkEndpoints rules strict scope registry declaration <;> rfl

theorem walkAllEndpoints_lenient (rules : Rules) (declarations : List Declaration)
    (scope : Option String) (registry : Registry) :
    ∃ after, walkAllEndpoints rules false scope registry declarations = .ok after := by
  induction declarations using Declaration.forest_induction generalizing scope registry with
  | nil => exact ⟨registry, rfl⟩
  | cons heading children rest inner after =>
    rw [walkAllEndpoints, walkEndpoints]
    apply ok_bind _ (after scope)
    split
    · exact ⟨registry, rfl⟩
    · split
      · exact tolerate_lenient _
      · exact inner _ registry

end ApiHandbook.Extraction
