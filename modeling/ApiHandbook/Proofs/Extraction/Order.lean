import ApiHandbook.Proofs.Extraction.Records

/-!
# The order of objects and endpoints

After a strict run that returns, objects stand in the order of their extraction and endpoints in
source order, each name at its first occurrence. Every further occurrence is recorded as a
duplicate. An endpoint inside an endpoint is not among them: the walk ends at the outer one.
-/
namespace ApiHandbook.Extraction
open Schema Source

/-- Objects are extracted completely, once and in order: those outside of endpoints, nested ones
first, and then those inside. -/
theorem objects_registered_in_order (rules : Rules) (source : List Declaration)
    (success : (extract rules true source).raised = none) :
    let names := (allWalkedObjects [] source ++ allEndpointObjects [] source).map (·.name)
    (extract rules true source).registry.objects.map (·.name) = names.eraseDups ∧
      (extract rules true source).registry.duplicates "object" = repeats names := by
  intro names
  obtain ⟨wrapped, _, noObjects, _, registers⟩ := extract_registers success
  obtain ⟨made, built, table⟩ := registers.objects
  rw [noObjects] at table
  obtain ⟨kept, repeated, _⟩ := ofEntries_of_forall₂ (fun _ _ built => built.name) built
  exact ⟨(congrArg (·.entries.map SchemaObject.name) table).trans kept,
    (congrArg Table.repeated table).trans repeated⟩

/-- A nested object comes before its record, the objects of an endpoint come last, and the second
record of a name is a duplicate. -/
theorem nested_and_repeated_objects_in_order :
    let source : List Declaration :=
      [.endpointOf "Fetch" [] [.objectOf "Item" []], .objectOf "Image" [.objectOf "Size" []],
        .objectOf "Image" []]
    (extract {} true source).registry.objects.map (·.name) =
      ["Image_Size", "Image", "Fetch_Header", "Fetch_Query", "Fetch_Body", "Fetch_Response",
        "Fetch_Item"] ∧
    (extract {} true source).registry.duplicates "object" = ["Image"] := by
  intro source
  have success : (extract {} true source).raised = none := by decide +kernel
  obtain ⟨names, repeated⟩ := objects_registered_in_order {} source success
  exact ⟨names.trans (by decide +kernel), repeated.trans (by decide +kernel)⟩

theorem mem_outermostEndpoints {source : List Declaration} {type : Occurrence} :
    type ∈ outermostEndpoints [] source ↔
      type ∈ (allOccurrences [] source).filter (·.heading.isEndpoint) ∧
        type.isEnclosed = false := by
  simp [outermostEndpoints, and_assoc]

/-- If no endpoint lies in another, all of them are outermost. -/
theorem outermostEndpoints_of_apart {source : List Declaration}
    (apart : ∀ type ∈ (allOccurrences [] source).filter (·.heading.isEndpoint),
      type.isEnclosed = false) :
    outermostEndpoints [] source = (allOccurrences [] source).filter (·.heading.isEndpoint) := by
  apply List.filter_congr
  intro type occurs
  cases endpoint : type.heading.isEndpoint with
  | false => rfl
  | true =>
    rw [apart type (List.mem_filter.mpr ⟨occurs, endpoint⟩)]
    rfl

/-- After a strict run that returns, the endpoints that lie in no other are registered in source
order, each as its first occurrence reads, and all others of a name are duplicates. So every
endpoint is registered exactly if each one inside another shares its name with one that is not;
if none lies in another, the endpoints in question are all endpoints of the source. -/
theorem outermost_endpoints_registered_in_order (rules : Rules) (source : List Declaration)
    (success : (extract rules true source).raised = none) :
    let every := (allOccurrences [] source).filter (·.heading.isEndpoint)
    let outer := outermostEndpoints [] source
    let registry := (extract rules true source).registry
    registry.endpoints.map (·.name) = (outer.map (·.name)).eraseDups ∧
    registry.duplicates "endpoint" = repeats (outer.map (·.name)) ∧
    (∀ endpoint ∈ registry.endpoints, ∃ record,
      outer.find? (·.name == endpoint.name) = some record ∧
        readEndpoint rules record.name record.children = .ok endpoint) ∧
    ((∀ type ∈ every, registry.hasEndpoint type.name = true) ↔
      ∀ type ∈ every, type.isEnclosed = true → type.name ∈ outer.map (·.name)) ∧
    ((∀ type ∈ every, type.isEnclosed = false) → outer = every) := by
  intro every outer registry
  obtain ⟨wrapped, _, _, noEndpoints, registers⟩ := extract_registers success
  obtain ⟨made, read, table⟩ := registers.endpoints
  rw [noEndpoints] at table
  have named : ∀ record endpoint, ReadFrom rules record endpoint → endpoint.name = record.name :=
    fun _ _ => readEndpoint_name
  obtain ⟨kept, repeated, first⟩ := ofEntries_of_forall₂ named read
  have entries : registry.endpoints = (Table.ofEntries Endpoint.name made).entries :=
    congrArg Table.entries table
  have names : registry.endpoints.map (·.name) = (outer.map (·.name)).eraseDups := by
    rw [entries]
    exact kept
  refine ⟨names, (congrArg Table.repeated table).trans repeated, ?_, ?_, ?_⟩
  · intro endpoint member
    exact first endpoint (entries ▸ member)
  · have registered_iff : ∀ name, registry.hasEndpoint name = true ↔
        name ∈ outer.map (·.name) := by
      intro name
      rw [Registry.hasEndpoint_iff, names, List.mem_eraseDups]
    simp only [registered_iff]
    constructor
    · intro all type listed _
      exact all type listed
    · intro nested type listed
      cases enclosed : type.isEnclosed with
      | true => exact nested type listed enclosed
      | false => exact List.mem_map_of_mem (mem_outermostEndpoints.mpr ⟨listed, enclosed⟩)
  · exact outermostEndpoints_of_apart

/-- Endpoints at the top and in a plain record; the second one of a name is a duplicate. -/
theorem repeated_endpoint_registered_once :
    let plain : Heading := { kind := .record, name := "Api" }
    let source : List Declaration :=
      [.node plain [.endpointOf "Fetch" [] []], .endpointOf "Fetch" [] [],
        .endpointOf "Fetch" [.ofType "item" "Api.Fetch.Body"] []]
    (extract {} true source).registry.endpoints.map (·.name) = ["Api_Fetch", "Fetch"] ∧
    (extract {} true source).registry.duplicates "endpoint" = ["Fetch"] ∧
    ∀ type ∈ (allOccurrences [] source).filter (·.heading.isEndpoint),
      (extract {} true source).registry.hasEndpoint type.name = true := by
  intro plain source
  have success : (extract {} true source).raised = none := by decide +kernel
  obtain ⟨names, repeated, _, registered, _⟩ :=
    outermost_endpoints_registered_in_order {} source success
  exact ⟨names.trans (by decide +kernel), repeated.trans (by decide +kernel),
    registered.mpr (by decide +kernel)⟩

/-- Not every endpoint is registered: the walk does not enter the outer one here. -/
theorem nested_endpoint_unregistered :
    ¬ ∀ (rules : Rules) (source : List Declaration), (extract rules true source).raised = none →
      ∀ type ∈ (allOccurrences [] source).filter (·.heading.isEndpoint),
        (extract rules true source).registry.hasEndpoint type.name = true := by
  intro documented
  let source : List Declaration := [.endpointOf "Outer" [] [.endpointOf "Inner" [] []]]
  have success : (extract {} true source).raised = none := by decide +kernel
  have absent : (extract {} true source).registry.hasEndpoint "Outer_Inner" = false := by
    decide +kernel
  have nested : ∃ type ∈ (allOccurrences [] source).filter (·.heading.isEndpoint),
      type.name = "Outer_Inner" := by decide +kernel
  obtain ⟨type, listed, name⟩ := nested
  have present := documented {} source success type listed
  rw [name, absent] at present
  cases present

end ApiHandbook.Extraction
