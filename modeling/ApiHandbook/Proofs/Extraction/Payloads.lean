import ApiHandbook.Proofs.Extraction.Passes

/-!
# Payloads stay registered

The objects that a registered endpoint stands on are in the registry at every moment of the pass
over endpoints, also while the objects of another endpoint are added or rolled back.
-/
namespace ApiHandbook.Extraction
open Schema Source
open Relation (ReflTransGen)

/-- Every payload of a registered endpoint is a registered object. -/
def PayloadsPresent (registry : Registry) : Prop :=
  ∀ endpoint ∈ registry.endpoints, ∀ name ∈ endpoint.payloads, registry.hasObject name = true

theorem PayloadsPresent.grow {before after : Registry} (present : PayloadsPresent before)
    (endpoints : after.endpoints = before.endpoints) (objects : before.objects <+: after.objects) :
    PayloadsPresent after := by
  intro endpoint member name payload
  rw [endpoints] at member
  exact Registry.hasObject_mono objects (present endpoint member name payload)

theorem PayloadsPresent.objectSteps {rules : Rules} {strict : Bool} {before after : Registry}
    (present : PayloadsPresent before)
    (steps : ReflTransGen (ObjectStep rules strict) before after) : PayloadsPresent after :=
  present.grow (objectSteps_growth steps).endpoints (objectSteps_growth steps).objects_kept

theorem PayloadsPresent.registerEndpoint {registry : Registry} {endpoint : Endpoint}
    (present : PayloadsPresent registry)
    (payloads : ∀ name ∈ endpoint.payloads, registry.hasObject name = true) :
    PayloadsPresent (registry.registerEndpoint endpoint) := by
  unfold Registry.registerEndpoint
  split
  · exact present
  · intro found member
    rcases List.mem_append.mp member with old | new
    · exact present found old
    · rw [List.mem_singleton.mp new]
      exact payloads

theorem PayloadsPresent.endpointStep {rules : Rules} {strict : Bool} {before after : Registry}
    (step : EndpointStep rules strict before after) (present : PayloadsPresent before) :
    PayloadsPresent after := by
  cases step with
  | rolledBack middle steps =>
    -- The objects of before are all there again, and no endpoint has been added since.
    rw [(objectSteps_growth steps).keepObjects_eq]
    exact present
  | tolerated error _ => exact present
  | registered middle endpoint steps payloads =>
    exact (present.objectSteps steps).registerEndpoint payloads

theorem PayloadsPresent.passStep {rules : Rules} {strict : Bool} {before after : Registry}
    (step : PassStep rules strict before after) (present : PayloadsPresent before) :
    PayloadsPresent after := by
  cases step with
  | oneOf step =>
    cases step with
    | leftOut error _ => exact present
    | tolerated error _ => exact present
    | ordinary name => exact present
    | registered wrapper _ =>
      unfold Registry.registerWrapper
      split <;> exact present
  | object step => exact present.objectSteps (.single step)
  | endpoint step => exact present.endpointStep step

theorem collectAllSymbols_payloadsPresent (source : List Declaration) :
    PayloadsPresent (collectAllSymbols none {} source) := by
  obtain ⟨symbols, scopes, fresh⟩ := collectAllSymbols_frame source none {}
  rw [fresh]
  intro endpoint member
  cases member

/-! ## The registries that a pass goes through -/

/-- The registries between the fields of an object. -/
def MembersVisit (rules : Rules) (object : String) (registry : Registry) (fields : List Heading)
    (state : Registry) : Prop :=
  ∃ read members, read <+: fields ∧
    collectMembers rules object registry read = .ok (state, members)

/-- The registries that the walk over objects goes through. -/
inductive ObjectsVisit (rules : Rules) (strict : Bool) :
    Option String → Registry → List Declaration → Registry → Prop
  | start (scope : Option String) (registry : Registry) (declarations : List Declaration) :
      ObjectsVisit rules strict scope registry declarations registry
  | inside {scope : Option String} {registry state : Registry} {heading : Heading}
      {children : List Declaration} (rest : List Declaration) (type : heading.isType = true)
      (entered : heading.isEndpoint = false)
      (visit : ObjectsVisit rules strict (some (qualifiedName scope heading.name)) registry
        children state) :
      ObjectsVisit rules strict scope registry (.node heading children :: rest) state
  | members {scope : Option String} {registry middle state : Registry} {heading : Heading}
      {children : List Declaration} (rest : List Declaration) (object : heading.isObject = true)
      (entered : heading.isEndpoint = false)
      (walked : walkAllObjects rules strict (some (qualifiedName scope heading.name)) registry
        children = .ok middle)
      (visit : MembersVisit rules (qualifiedName scope heading.name) middle
        (Declaration.fieldHeadings children) state) :
      ObjectsVisit rules strict scope registry (.node heading children :: rest) state
  | next {scope : Option String} {registry middle state : Registry} {declaration : Declaration}
      {rest : List Declaration}
      (walked : walkObjects rules strict scope registry declaration = .ok middle)
      (visit : ObjectsVisit rules strict scope middle rest state) :
      ObjectsVisit rules strict scope registry (declaration :: rest) state

/-- The registries that the objects of an endpoint go through. -/
inductive PayloadsVisit (rules : Rules) (strict : Bool) (name : String) :
    Registry → List Declaration → Registry → Prop
  | start (registry : Registry) (children : List Declaration) :
      PayloadsVisit rules strict name registry children registry
  | inside {registry state : Registry} {heading : Heading} {children : List Declaration}
      (rest : List Declaration) (object : heading.isObject = true)
      (visit : ObjectsVisit rules strict (some (qualifiedName (some name) heading.name)) registry
        children state) :
      PayloadsVisit rules strict name registry (.node heading children :: rest) state
  | members {registry middle state : Registry} {heading : Heading} {children : List Declaration}
      (rest : List Declaration) (object : heading.isObject = true)
      (walked : walkAllObjects rules strict (some (qualifiedName (some name) heading.name)) registry
        children = .ok middle)
      (visit : MembersVisit rules (qualifiedName (some name) heading.name) middle
        (Declaration.fieldHeadings children) state) :
      PayloadsVisit rules strict name registry (.node heading children :: rest) state
  | other {registry state : Registry} {child : Declaration} (rest : List Declaration)
      (plain : child.heading.isObject = false)
      (visit : ObjectsVisit rules strict (some name) registry [child] state) :
      PayloadsVisit rules strict name registry (child :: rest) state
  | next {registry middle state : Registry} {child : Declaration} {rest : List Declaration}
      (extracted : (if child.heading.isObject then
          extractObject rules strict (some name) registry child
        else walkObjects rules strict (some name) registry child) = .ok middle)
      (visit : PayloadsVisit rules strict name middle rest state) :
      PayloadsVisit rules strict name registry (child :: rest) state

/-- The registries that the pass over endpoints goes through. -/
inductive EndpointsVisit (rules : Rules) (strict : Bool) :
    Option String → Registry → List Declaration → Registry → Prop
  | start (scope : Option String) (registry : Registry) (declarations : List Declaration) :
      EndpointsVisit rules strict scope registry declarations registry
  | inside {scope : Option String} {registry state : Registry} {heading : Heading}
      {children : List Declaration} (rest : List Declaration) (type : heading.isType = true)
      (entered : heading.isEndpoint = false)
      (visit : EndpointsVisit rules strict (some (qualifiedName scope heading.name)) registry
        children state) :
      EndpointsVisit rules strict scope registry (.node heading children :: rest) state
  | payloads {scope : Option String} {registry state : Registry} {heading : Heading}
      {children : List Declaration} {endpoint : Endpoint} (rest : List Declaration)
      (found : heading.isEndpoint = true)
      (read : readEndpoint rules (qualifiedName scope heading.name) children = .ok endpoint)
      (visit : PayloadsVisit rules strict (qualifiedName scope heading.name) registry children
        state) :
      EndpointsVisit rules strict scope registry (.node heading children :: rest) state
  /-- The objects of a failed endpoint are dropped one after another, until none is left. -/
  | dropping {scope : Option String} {registry : Registry} {heading : Heading}
      {children : List Declaration} {endpoint : Endpoint} {stopped : Stopped} (kept : List String)
      (rest : List Declaration) (found : heading.isEndpoint = true)
      (read : readEndpoint rules (qualifiedName scope heading.name) children = .ok endpoint)
      (failed : extractPayloads rules strict (qualifiedName scope heading.name) registry children =
        .error stopped)
      (older : ∀ object ∈ registry.objects, object.name ∈ kept) :
      EndpointsVisit rules strict scope registry (.node heading children :: rest)
        (stopped.registry.keepObjects kept)
  | next {scope : Option String} {registry middle state : Registry} {declaration : Declaration}
      {rest : List Declaration}
      (walked : walkEndpoints rules strict scope registry declaration = .ok middle)
      (visit : EndpointsVisit rules strict scope middle rest state) :
      EndpointsVisit rules strict scope registry (declaration :: rest) state

theorem ObjectsVisit.steps {rules : Rules} {strict : Bool} {scope : Option String}
    {registry state : Registry} {declarations : List Declaration}
    (visit : ObjectsVisit rules strict scope registry declarations state) :
    ReflTransGen (ObjectStep rules strict) registry state := by
  induction visit with
  | start => exact .refl
  | inside _ _ _ _ ih => exact ih
  | members _ _ _ walked visit =>
    obtain ⟨read, members, _, collected⟩ := visit
    exact ((walkAllObjects_run ..).finished walked).trans (collectMembers_ok strict collected).1
  | next walked _ ih =>
    rw [walkObjects_eq_walkAllObjects] at walked
    exact ((walkAllObjects_run ..).finished walked).trans ih

theorem PayloadsVisit.steps {rules : Rules} {strict : Bool} {name : String}
    {registry state : Registry} {children : List Declaration}
    (visit : PayloadsVisit rules strict name registry children state) :
    ReflTransGen (ObjectStep rules strict) registry state := by
  induction visit with
  | start => exact .refl
  | inside _ _ visit => exact visit.steps
  | members _ _ walked visit =>
    obtain ⟨read, members, _, collected⟩ := visit
    exact ((walkAllObjects_run ..).finished walked).trans (collectMembers_ok strict collected).1
  | other _ _ visit => exact visit.steps
  | next extracted _ ih =>
    split at extracted
    · exact ((extractObject_run ..).finished extracted).trans ih
    · rw [walkObjects_eq_walkAllObjects] at extracted
      exact ((walkAllObjects_run ..).finished extracted).trans ih

/-- At every moment of the pass the endpoints are those that finished records have left, and so are
the objects but for more behind them. -/
theorem EndpointsVisit.steps {rules : Rules} {strict : Bool} {scope : Option String}
    {registry state : Registry} {declarations : List Declaration}
    (visit : EndpointsVisit rules strict scope registry declarations state) :
    ∃ middle, ReflTransGen (EndpointStep rules strict) registry middle ∧
      state.endpoints = middle.endpoints ∧ middle.objects <+: state.objects := by
  induction visit with
  | start => exact ⟨_, .refl, rfl, List.prefix_rfl⟩
  | inside _ _ _ _ ih => exact ih
  | payloads _ _ _ visit =>
    have grown := objectSteps_growth visit.steps
    exact ⟨_, .refl, grown.endpoints, grown.objects_kept⟩
  | dropping kept _ _ _ failed older =>
    have grown := objectSteps_growth ((extractPayloads_run ..).stopped failed)
    exact ⟨_, .refl, grown.endpoints, Registry.objects_kept_by_keepObjects grown.objects_kept older⟩
  | next walked _ ih =>
    rw [walkEndpoints_eq_walkAllEndpoints] at walked
    obtain ⟨middle, steps, kept⟩ := ih
    exact ⟨middle, ((walkAllEndpoints_run ..).finished walked).trans steps, kept⟩

theorem EndpointsVisit.payloadsPresent {rules : Rules} {strict : Bool} {scope : Option String}
    {registry state : Registry} {declarations : List Declaration}
    (visit : EndpointsVisit rules strict scope registry declarations state)
    (start : PayloadsPresent registry) : PayloadsPresent state := by
  obtain ⟨middle, steps, endpoints, objects⟩ := visit.steps
  have present : PayloadsPresent middle :=
    steps_keep (fun _ _ => PayloadsPresent.endpointStep) steps start
  exact present.grow endpoints objects

theorem extractEndpoint_error_visited {rules : Rules} {strict : Bool} {scope : Option String}
    {registry : Registry} {heading : Heading} {children : List Declaration} {stopped : Stopped}
    (rest : List Declaration) (found : heading.isEndpoint = true)
    (failed : extractEndpoint rules strict scope registry (.node heading children) =
      .error stopped) :
    EndpointsVisit rules strict scope registry (.node heading children :: rest)
      stopped.registry := by
  unfold extractEndpoint parseEndpoint at failed
  dsimp only at failed
  cases strict with
  | false =>
    obtain ⟨after, finished⟩ := tolerate_lenient _
    rw [finished] at failed
    cases failed
  | true =>
    split at failed
    · cases failed
      exact .start scope registry _
    · rename_i endpoint read
      cases extracted : extractPayloads rules true (qualifiedName scope heading.name) registry
          children with
      | ok after =>
        rw [extracted] at failed
        cases failed
      | error inner =>
        rw [extracted] at failed
        cases failed
        refine .dropping _ rest found read extracted ?_
        intro object member
        exact List.mem_map_of_mem member

/-- The registry that the pass leaves is one of those it goes through. -/
theorem walkAllEndpoints_visited (rules : Rules) (strict : Bool) (declarations : List Declaration)
    (scope : Option String) (registry : Registry) :
    EndpointsVisit rules strict scope registry declarations
      (registryLeft (walkAllEndpoints rules strict scope registry declarations)) := by
  induction declarations using Declaration.forest_induction generalizing scope registry with
  | nil => exact .start scope registry []
  | cons heading children rest inner after =>
    rw [walkAllEndpoints]
    cases first : walkEndpoints rules strict scope registry (.node heading children) with
    | ok middle => exact .next first (after scope middle)
    | error stopped =>
      change EndpointsVisit rules strict scope registry _ stopped.registry
      rw [walkEndpoints] at first
      split at first
      · cases first
      · rename_i type
        split at first
        · rename_i found
          exact extractEndpoint_error_visited rest found first
        · rename_i entered
          have visit := inner (some (qualifiedName scope heading.name)) registry
          rw [first] at visit
          exact .inside rest (by simpa using type) (by simpa using entered) visit

end ApiHandbook.Extraction
