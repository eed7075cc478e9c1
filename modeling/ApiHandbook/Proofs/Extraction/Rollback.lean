import ApiHandbook.Proofs.Extraction.Endpoints

/-!
# Endpoints succeed or fail as a whole

A failed endpoint leaves nothing behind but errors, and errors have no influence on what is
registered later. So a lenient pass registers what it would register without the declarations
that fail.
-/
namespace ApiHandbook.Extraction
open Schema Source

/-- Registries that differ at most in their errors. -/
def SameButErrors (one other : Registry) : Prop := ∃ errors, other = { one with errors := errors }

namespace SameButErrors
variable {one other : Registry}

theorem refl (registry : Registry) : SameButErrors registry registry := ⟨registry.errors, rfl⟩

theorem types (same : SameButErrors one other) : Registry.SameTypes one other := by
  obtain ⟨errors, rfl⟩ := same
  exact ⟨rfl, rfl, rfl⟩

theorem record (same : SameButErrors one other) (error : SchemaError) :
    SameButErrors (one.record error) (other.record error) := by
  obtain ⟨errors, rfl⟩ := same
  exact ⟨errors ++ [error], rfl⟩

theorem registerObject (same : SameButErrors one other) (object : SchemaObject) :
    SameButErrors (one.registerObject object) (other.registerObject object) := by
  obtain ⟨errors, rfl⟩ := same
  unfold Registry.registerObject
  change SameButErrors _ (if one.hasObject object.name then _ else _)
  split
  · exact ⟨errors ++ [.duplicate object.name "object"], rfl⟩
  · exact ⟨errors, rfl⟩

theorem registerEndpoint (same : SameButErrors one other) (endpoint : Endpoint) :
    SameButErrors (one.registerEndpoint endpoint) (other.registerEndpoint endpoint) := by
  obtain ⟨errors, rfl⟩ := same
  unfold Registry.registerEndpoint
  change SameButErrors _ (if one.hasEndpoint endpoint.name then _ else _)
  split
  · exact ⟨errors ++ [.duplicate endpoint.name "endpoint"], rfl⟩
  · exact ⟨errors, rfl⟩

theorem keepObjects (same : SameButErrors one other) (names : List String) :
    SameButErrors (one.keepObjects names) (other.keepObjects names) := by
  obtain ⟨errors, rfl⟩ := same
  exact ⟨errors, rfl⟩

end SameButErrors

/-- Two runs that end the same way: with related results, or stopped by one error in registries
that differ at most in what was recorded before. -/
inductive Alike {α : Type} (related : α → α → Prop) : Except Stopped α → Except Stopped α → Prop
  | finished {one other : α} (same : related one other) : Alike related (.ok one) (.ok other)
  | stopped {one other : Registry} (error : SchemaError) (same : SameButErrors one other) :
      Alike related (.error ⟨one, error⟩) (.error ⟨other, error⟩)

/-- Registries that differ at most in their errors, with the same by-product. -/
def SamePair {α : Type} (one other : Registry × α) : Prop :=
  SameButErrors one.1 other.1 ∧ one.2 = other.2

theorem Alike.bind {α β : Type} {first : α → α → Prop} {second : β → β → Prop}
    {run run' : Except Stopped α} {next next' : α → Except Stopped β} (alike : Alike first run run')
    (rest : ∀ one other, first one other → Alike second (next one) (next' other)) :
    Alike second (run >>= next) (run' >>= next') := by
  cases alike with
  | finished same => exact rest _ _ same
  | stopped error same => exact .stopped error same

theorem Alike.tolerate {strict : Bool} {run run' : Except Stopped Registry}
    (alike : Alike SameButErrors run run') :
    Alike SameButErrors (tolerate strict run) (tolerate strict run') := by
  cases alike with
  | finished same => exact .finished same
  | stopped error same =>
    cases strict with
    | true => exact .stopped error same
    | false => exact .finished (same.record error)

theorem collectMembers_alike (rules : Rules) (object : String) (fields : List Heading)
    {one other : Registry} (same : SameButErrors one other) :
    Alike SamePair (collectMembers rules object one fields)
      (collectMembers rules object other fields) := by
  induction fields generalizing one other with
  | nil => exact .finished ⟨same, rfl⟩
  | cons field rest ih =>
    have made_eq : ∀ shape, memberOf rules other object field shape =
        memberOf rules one object field shape := by
      intro shape
      simp only [memberOf, same.types.resolveShape_eq]
    unfold collectMembers
    split
    · rw [made_eq]
      split
      · apply (ih same).bind
        rintro ⟨after, members⟩ ⟨after', members'⟩ ⟨same, rfl⟩
        exact .finished ⟨same, rfl⟩
      · split
        · exact ih (same.record _)
        · exact .stopped _ same
    · exact ih same

theorem finishObject_alike (rules : Rules) (name : String) (heading : Heading)
    (children : List Declaration) {one other : Registry} (same : SameButErrors one other) :
    Alike SameButErrors (finishObject rules name heading children one)
      (finishObject rules name heading children other) := by
  apply (collectMembers_alike rules name (Declaration.fieldHeadings children) same).bind
  rintro ⟨after, members⟩ ⟨after', members'⟩ ⟨same, rfl⟩
  exact .finished (same.registerObject _)

theorem walkAllObjects_alike (rules : Rules) (strict : Bool) (declarations : List Declaration)
    (scope : Option String) {one other : Registry} (same : SameButErrors one other) :
    Alike SameButErrors (walkAllObjects rules strict scope one declarations)
      (walkAllObjects rules strict scope other declarations) := by
  induction declarations using Declaration.forest_induction generalizing scope one other with
  | nil => exact .finished same
  | cons heading children rest inner after =>
    rw [walkAllObjects, walkAllObjects, walkObjects, walkObjects]
    refine Alike.bind ?_ (fun _ _ same => after scope same)
    split
    · exact .finished same
    · dsimp only
      split
      · apply Alike.tolerate
        exact (inner _ same).bind (fun _ _ same => finishObject_alike rules _ heading children same)
      · exact inner _ same

theorem extractPayloads_alike (rules : Rules) (strict : Bool) (name : String)
    (children : List Declaration) {one other : Registry} (same : SameButErrors one other) :
    Alike SameButErrors (extractPayloads rules strict name one children)
      (extractPayloads rules strict name other children) := by
  induction children generalizing one other with
  | nil => exact .finished same
  | cons child rest ih =>
    rw [extractPayloads_cons, extractPayloads_cons]
    refine Alike.bind ?_ (fun _ _ same => ih same)
    split
    · obtain ⟨heading, children⟩ := child
      exact (walkAllObjects_alike rules strict children _ same).bind
        (fun _ _ same => finishObject_alike rules _ heading children same)
    · rw [walkObjects_eq_walkAllObjects, walkObjects_eq_walkAllObjects]
      exact walkAllObjects_alike rules strict [child] (some name) same

theorem parseEndpoint_alike (rules : Rules) (strict : Bool) (scope : Option String)
    (declaration : Declaration) {one other : Registry} (same : SameButErrors one other) :
    Alike SamePair (parseEndpoint rules strict scope one declaration)
      (parseEndpoint rules strict scope other declaration) := by
  obtain ⟨heading, children⟩ := declaration
  unfold parseEndpoint
  dsimp only
  split
  · exact .stopped _ same
  · have objects_eq : other.objects = one.objects := by
      obtain ⟨errors, rfl⟩ := same
      rfl
    rw [objects_eq]
    have alike := extractPayloads_alike rules strict (qualifiedName scope heading.name) children same
    generalize extractPayloads rules strict (qualifiedName scope heading.name) one children = run,
      extractPayloads rules strict (qualifiedName scope heading.name) other children = run' at alike
    cases alike with
    | finished same => exact .finished ⟨same, rfl⟩
    | stopped error same => exact .stopped error (same.keepObjects _)

theorem extractEndpoint_alike (rules : Rules) (strict : Bool) (scope : Option String)
    (declaration : Declaration) {one other : Registry} (same : SameButErrors one other) :
    Alike SameButErrors (extractEndpoint rules strict scope one declaration)
      (extractEndpoint rules strict scope other declaration) := by
  apply Alike.tolerate
  apply (parseEndpoint_alike rules strict scope declaration same).bind
  rintro ⟨after, endpoint⟩ ⟨after', endpoint'⟩ ⟨same, rfl⟩
  exact .finished (same.registerEndpoint endpoint)

/-- A failed endpoint changes nothing but the errors, to which it adds. -/
theorem parseEndpoint_error_registry {rules : Rules} {strict : Bool} {scope : Option String}
    {registry : Registry} {declaration : Declaration} {stopped : Stopped}
    (failed : parseEndpoint rules strict scope registry declaration = .error stopped) :
    ∃ recorded, stopped.registry = { registry with errors := registry.errors ++ recorded } := by
  obtain ⟨_, after, steps, left⟩ := parseEndpoint_error failed
  have grown := objectSteps_growth steps
  obtain ⟨recorded, errors_eq⟩ := grown.errors
  refine ⟨recorded, ?_⟩
  rw [left, grown.keepObjects_eq, errors_eq]

mutual

/-- A declaration without the endpoints that fail when a lenient walk comes to them. -/
def dropFailing (rules : Rules) (scope : Option String) (registry : Registry) :
    Declaration → List Declaration
  | .node heading children =>
    if !heading.isType then [.node heading children]
    else if heading.isEndpoint then
      match parseEndpoint rules false scope registry (.node heading children) with
      | .ok _ => [.node heading children]
      | .error _ => []
    else
      [.node heading
        (dropAllFailing rules (some (qualifiedName scope heading.name)) registry children)]

def dropAllFailing (rules : Rules) (scope : Option String) (registry : Registry) :
    List Declaration → List Declaration
  | [] => []
  | declaration :: rest =>
    dropFailing rules scope registry declaration ++
      dropAllFailing rules scope
        (registryLeft (walkEndpoints rules false scope registry declaration)) rest

end

theorem walkAllEndpoints_append (rules : Rules) (strict : Bool) (scope : Option String)
    (registry : Registry) (first rest : List Declaration) :
    walkAllEndpoints rules strict scope registry (first ++ rest) =
      walkAllEndpoints rules strict scope registry first >>= fun registry =>
        walkAllEndpoints rules strict scope registry rest := by
  induction first generalizing registry with
  | nil => rfl
  | cons declaration others ih =>
    rw [List.cons_append, walkAllEndpoints, walkAllEndpoints]
    cases walkEndpoints rules strict scope registry declaration with
    | error stopped => rfl
    | ok middle => exact ih middle

/-- An endpoint that fails can be left out of a lenient walk. -/
theorem extractEndpoint_dropFailing (rules : Rules) (scope : Option String) (heading : Heading)
    (children : List Declaration) (endpoint : heading.isEndpoint = true)
    (type : (!heading.isType) = false) {full pruned : Registry} (same : SameButErrors full pruned) :
    Alike SameButErrors (extractEndpoint rules false scope full (.node heading children))
      (walkAllEndpoints rules false scope pruned
        (dropFailing rules scope full (.node heading children))) := by
  rw [dropFailing, type, endpoint]
  simp only [Bool.false_eq_true, if_false, if_true]
  split
  · rw [← walkEndpoints_eq_walkAllEndpoints, walkEndpoints, type, endpoint]
    exact extractEndpoint_alike rules false scope _ same
  · rename_i stopped failed
    obtain ⟨recorded, left⟩ := parseEndpoint_error_registry failed
    obtain ⟨errors, rfl⟩ := same
    unfold extractEndpoint
    rw [failed]
    refine .finished ⟨errors, ?_⟩
    rw [left]
    rfl

theorem walkAllEndpoints_dropAllFailing (rules : Rules) (declarations : List Declaration)
    (scope : Option String) {full pruned : Registry} (same : SameButErrors full pruned) :
    Alike SameButErrors (walkAllEndpoints rules false scope full declarations)
      (walkAllEndpoints rules false scope pruned
        (dropAllFailing rules scope full declarations)) := by
  induction declarations using Declaration.forest_induction generalizing scope full pruned with
  | nil => exact .finished same
  | cons heading children rest inner after =>
    rw [walkAllEndpoints, dropAllFailing, walkAllEndpoints_append]
    have first : Alike SameButErrors (walkEndpoints rules false scope full (.node heading children))
        (walkAllEndpoints rules false scope pruned
          (dropFailing rules scope full (.node heading children))) := by
      cases type : (!heading.isType) with
      | true =>
        simp only [walkEndpoints, dropFailing, walkAllEndpoints, type, if_true]
        exact .finished same
      | false =>
        cases endpoint : heading.isEndpoint with
        | true =>
          rw [walkEndpoints, type, endpoint]
          exact extractEndpoint_dropFailing rules scope heading children endpoint type same
        | false =>
          rw [dropFailing, walkEndpoints]
          simp only [type, endpoint, Bool.false_eq_true, if_false]
          rw [← walkEndpoints_eq_walkAllEndpoints, walkEndpoints]
          simp only [type, endpoint, Bool.false_eq_true, if_false]
          exact inner _ same
    generalize walkEndpoints rules false scope full (.node heading children) = run at first
    generalize walkAllEndpoints rules false scope pruned
      (dropFailing rules scope full (.node heading children)) = run' at first
    cases first with
    | finished same => exact after scope same
    | stopped error same => exact .stopped error same

/-- A failing endpoint is atomic, in every registry and whether the run is strict or not: the
registry is as before but for errors added at the end. So after a lenient pass the objects and
endpoints are those of the pass over the source without the endpoints that fail in it. -/
theorem failed_endpoint_is_atomic (rules : Rules) (registry : Registry) :
    (∀ strict scope declaration stopped,
      parseEndpoint rules strict scope registry declaration = .error stopped →
      stopped.registry.objects = registry.objects ∧
      stopped.registry.symbols = registry.symbols ∧
      stopped.registry.scopes = registry.scopes ∧
      stopped.registry.wrappers = registry.wrappers ∧
      stopped.registry.endpoints = registry.endpoints ∧
      registry.errors <+: stopped.registry.errors) ∧
    ∀ source, ∃ full pruned,
      walkAllEndpoints rules false none registry source = .ok full ∧
      walkAllEndpoints rules false none registry (dropAllFailing rules none registry source) =
        .ok pruned ∧
      full.objects = pruned.objects ∧ full.endpoints = pruned.endpoints := by
  constructor
  · intro strict scope declaration stopped failed
    obtain ⟨recorded, left⟩ := parseEndpoint_error_registry failed
    rw [left]
    exact ⟨rfl, rfl, rfl, rfl, rfl, List.prefix_append _ _⟩
  · intro source
    obtain ⟨full, walked⟩ := walkAllEndpoints_lenient rules source none registry
    obtain ⟨pruned, walked'⟩ := walkAllEndpoints_lenient rules
      (dropAllFailing rules none registry source) none registry
    have alike := walkAllEndpoints_dropAllFailing rules source none (SameButErrors.refl registry)
    rw [walked, walked'] at alike
    cases alike with
    | finished same =>
      obtain ⟨errors, rfl⟩ := same
      exact ⟨full, _, walked, walked', rfl, rfl⟩

/-- The header of the endpoint comes second to an object of its name, then the body fails. -/
theorem failed_endpoint_keeps_earlier_header :
    let earlier : Registry := { objects := [{ name := "Late_Header", comment := "earlier" }] }
    ∃ stopped, parseEndpoint {} false none earlier
        (.endpointOf "Late" [.ofType "item" "Missing.Item"] []) = .error stopped ∧
      stopped.registry.objects = earlier.objects := by
  intro earlier
  have fails : (parseEndpoint {} false none earlier
      (.endpointOf "Late" [.ofType "item" "Missing.Item"] [])).isOk = false := by decide +kernel
  cases parsed : parseEndpoint {} false none earlier
      (.endpointOf "Late" [.ofType "item" "Missing.Item"] []) with
  | ok result =>
    rw [parsed] at fails
    cases fails
  | error stopped =>
    exact ⟨stopped, rfl, ((failed_endpoint_is_atomic {} earlier).1 false none _ stopped parsed).1⟩

end ApiHandbook.Extraction
