import ApiHandbook.Handbook.Document
import ApiHandbook.Proofs.Extraction.Payloads

/-!
# Every extracted schema can be printed

Printing fails only at an endpoint whose payload is no registered object, and extraction never
leaves such an endpoint.
-/
namespace ApiHandbook.Handbook
open Schema Source Extraction

theorem object_of_hasObject {registry : Registry} {name : String}
    (present : registry.hasObject name = true) : ∃ object, registry.object name = .ok object := by
  unfold Registry.object Registry.object?
  cases found : registry.objects.find? (·.name == name) with
  | some object => exact ⟨object, rfl⟩
  | none =>
    rw [Registry.hasObject, List.any_eq_true] at present
    obtain ⟨object, member, named⟩ := present
    exact absurd named (List.find?_eq_none.mp found object member)

theorem renderEndpoint_ok {registry : Registry} {endpoint : Endpoint}
    (present : ∀ name ∈ endpoint.payloads, registry.hasObject name = true) :
    ∃ text, renderEndpoint registry endpoint = .ok text := by
  have payload : ∀ name ∈ endpoint.payloads, ∃ object, registry.object name = .ok object :=
    fun name member => object_of_hasObject (present name member)
  obtain ⟨header, header_eq⟩ := payload endpoint.header (by simp [Endpoint.payloads])
  obtain ⟨query, query_eq⟩ := payload endpoint.query (by simp [Endpoint.payloads])
  obtain ⟨body, body_eq⟩ := payload endpoint.body (by simp [Endpoint.payloads])
  obtain ⟨response, response_eq⟩ := payload endpoint.response (by simp [Endpoint.payloads])
  unfold renderEndpoint endpointLines
  rw [header_eq, query_eq, body_eq, response_eq]
  exact ⟨_, rfl⟩

theorem renderEndpoints_ok {registry : Registry} {endpoints : List Endpoint}
    (present : ∀ endpoint ∈ endpoints, ∀ name ∈ endpoint.payloads,
      registry.hasObject name = true) :
    ∃ sections, renderEndpoints registry endpoints = .ok sections := by
  induction endpoints with
  | nil => exact ⟨[], rfl⟩
  | cons endpoint rest ih =>
    obtain ⟨first, first_eq⟩ := renderEndpoint_ok (present endpoint List.mem_cons_self)
    obtain ⟨others, rest_eq⟩ :=
      ih (fun found member => present found (List.mem_cons_of_mem _ member))
    rw [renderEndpoints, first_eq, rest_eq]
    exact ⟨first :: others, rfl⟩

theorem renderDocument_ok {registry : Registry} (present : PayloadsPresent registry)
    (catalog : Bool) : ∃ text, renderDocument registry catalog = .ok text := by
  obtain ⟨sections, printed⟩ := renderEndpoints_ok present
  unfold renderDocument
  rw [printed]
  exact ⟨_, rfl⟩

/-- Nothing fails outside strict runs and nothing fails behind an extraction: a lenient run
returns, and what any run leaves can be printed, with and without the catalog. For in every
registry that the pass over endpoints goes through, rolled back or not, the four payloads of each
registered endpoint are registered. -/
theorem extraction_and_printing_never_fail (rules : Rules) (source : List Declaration) :
    (extract rules false source).raised = none ∧
    (∀ strict catalog,
      ∃ text, renderDocument (extract rules strict source).registry catalog = .ok text) ∧
    ∀ strict state,
      EndpointsVisit rules strict none
        (runPasses rules strict source {} [.symbols, .oneOfs, .objects]).registry source state →
      ∀ endpoint ∈ state.endpoints,
        state.hasObject endpoint.header = true ∧ state.hasObject endpoint.query = true ∧
        state.hasObject endpoint.body = true ∧ state.hasObject endpoint.response = true := by
  have fresh := collectAllSymbols_payloadsPresent source
  refine ⟨extract_lenient_raised rules source, ?_, ?_⟩
  · intro strict catalog
    exact renderDocument_ok (extract_keeps (fun _ _ => PayloadsPresent.passStep) fresh) catalog
  · intro strict state visit endpoint member
    have start : PayloadsPresent
        (runPasses rules strict source {} [.symbols, .oneOfs, .objects]).registry :=
      runPasses_keeps (fun _ _ => PayloadsPresent.passStep) [.oneOfs, .objects] (by simp) _ fresh
    have present := visit.payloadsPresent start endpoint member
    simpa [Endpoint.payloads] using present

/-- The second endpoint is rolled back after the first has been registered. -/
theorem payloads_kept_through_rollback :
    let source : List Declaration :=
      [.endpointOf "First" [] [], .endpointOf "Failing" [.ofType "item" "Missing.Item"] []]
    let start := (runPasses {} true source {} [.symbols, .oneOfs, .objects]).registry
    ∃ state, EndpointsVisit {} true none start source state ∧
      state.hasObject "Failing_Header" = false ∧
      ∃ endpoint ∈ state.endpoints, state.hasObject endpoint.header = true := by
  intro source start
  let left := registryLeft (walkAllEndpoints {} true none start source)
  have visit : EndpointsVisit {} true none start source left := walkAllEndpoints_visited ..
  have registered : ∃ endpoint ∈ left.endpoints, endpoint.name = "First" := by decide +kernel
  obtain ⟨endpoint, member, _⟩ := registered
  have present :=
    (extraction_and_printing_never_fail {} source).2.2 true left visit endpoint member
  exact ⟨left, visit, by decide +kernel, endpoint, member, present.1⟩

end ApiHandbook.Handbook
