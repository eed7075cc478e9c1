import ApiHandbook.Proofs.Handbook.Closure
import ApiHandbook.Proofs.Handbook.Links

/-!
# What a handbook depends on

The section of an endpoint reads the objects that its payloads lead to and nothing else of a
registry. The whole handbook reads the endpoints in their order and the objects by their names;
the order in which objects were registered does not show.
-/
namespace ApiHandbook.Handbook
open Schema

/-- The names that an endpoint leads to: its payloads, and what the members of an object under
such a name mention. -/
inductive LeadsTo (registry : Registry) (endpoint : Endpoint) : String → Prop
  | payload {name : String} (listed : name ∈ endpoint.payloads) : LeadsTo registry endpoint name
  | through {name other : String} {object : SchemaObject} {member : Member}
      (reached : LeadsTo registry endpoint name) (found : registry.object? name = some object)
      (listed : member ∈ object.members) (mentions : Mentions other member.valueType) :
      LeadsTo registry endpoint other

section
variable {first second : Registry}

/-! ## Related objects -/

theorem LeadsTo.of_related {registry : Registry} {endpoint : Endpoint} {members : List Member}
    {name : String} (shown : ∀ member ∈ members, ∃ payload object,
      payload ∈ endpoint.payloads ∧ registry.object? payload = some object ∧
        member ∈ object.members)
    (related : Related registry members name) : LeadsTo registry endpoint name := by
  induction related with
  | mentioned listed mentions =>
    obtain ⟨payload, object, of_endpoint, found, inside⟩ := shown _ listed
    exact .through (.payload of_endpoint) found inside mentions
  | through _ found listed mentions ih => exact .through ih found listed mentions

theorem Related.carry {members : List Member} {name : String}
    (agree : ∀ name, Related first members name → first.object? name = second.object? name)
    (related : Related first members name) : Related second members name := by
  induction related with
  | mentioned listed mentions => exact .mentioned listed mentions
  | through earlier found listed mentions ih =>
    exact .through ih ((agree _ earlier).symm.trans found) listed mentions

/-- Two registries that agree on what the first relates to some members relate the same to them:
the way to a name goes through names on which they agree. -/
theorem Related.carry_back {members : List Member} {name : String}
    (agree : ∀ name, Related first members name → first.object? name = second.object? name)
    (related : Related second members name) : Related first members name := by
  induction related with
  | mentioned listed mentions => exact .mentioned listed mentions
  | through _ found listed mentions ih =>
    exact .through ih ((agree _ ih).trans found) listed mentions

theorem relatedObjects_agree {members : List Member}
    (agree : ∀ name, Related first members name → first.object? name = second.object? name) :
    relatedObjects first members = relatedObjects second members := by
  apply eq_of_increasing (relatedObjects_increasing ..) (relatedObjects_increasing ..)
  intro object
  rw [mem_relatedObjects_iff, mem_relatedObjects_iff]
  constructor
  · rintro ⟨found, related⟩
    exact ⟨(agree _ related).symm.trans found, related.carry agree⟩
  · rintro ⟨found, related⟩
    have back := related.carry_back agree
    exact ⟨(agree _ back).trans found, back⟩

/-! ## Sections of endpoints -/

theorem object_agree {name : String} (agree : first.object? name = second.object? name) :
    first.object name = second.object name := by
  rw [Registry.object, Registry.object, agree]

theorem endpointLines_agree {endpoint : Endpoint}
    (agree : ∀ name, LeadsTo first endpoint name → first.object? name = second.object? name) :
    endpointLines first endpoint = endpointLines second endpoint := by
  have payload : ∀ name ∈ endpoint.payloads, first.object name = second.object name :=
    fun name listed => object_agree (agree name (.payload listed))
  have of_body : endpoint.body ∈ endpoint.payloads := by simp [Endpoint.payloads]
  have of_response : endpoint.response ∈ endpoint.payloads := by simp [Endpoint.payloads]
  have related : ∀ body response, first.object endpoint.body = .ok body →
      first.object endpoint.response = .ok response →
      relatedObjects first (body.members ++ response.members) =
        relatedObjects second (body.members ++ response.members) := by
    intro body response body_eq response_eq
    apply relatedObjects_agree
    intro name reached
    apply agree
    apply LeadsTo.of_related _ reached
    intro member listed
    rcases List.mem_append.mp listed with inside | inside
    · exact ⟨endpoint.body, body, of_body, object?_of_object body_eq, inside⟩
    · exact ⟨endpoint.response, response, of_response, object?_of_object response_eq, inside⟩
  unfold endpointLines
  rw [← payload endpoint.header (by simp [Endpoint.payloads]),
    ← payload endpoint.query (by simp [Endpoint.payloads]), ← payload endpoint.body of_body,
    ← payload endpoint.response of_response]
  cases first.object endpoint.header with
  | error fault => rfl
  | ok header =>
    cases first.object endpoint.query with
    | error fault => rfl
    | ok query =>
      cases body_eq : first.object endpoint.body with
      | error fault => rfl
      | ok body =>
        cases response_eq : first.object endpoint.response with
        | error fault => rfl
        | ok response =>
          simp only [bind, Except.bind]
          rw [related body response body_eq response_eq]

theorem renderEndpoints_agree {endpoints : List Endpoint}
    (agree : ∀ name, first.object? name = second.object? name) :
    renderEndpoints first endpoints = renderEndpoints second endpoints := by
  induction endpoints with
  | nil => rfl
  | cons endpoint rest ih =>
    rw [renderEndpoints, renderEndpoints, renderEndpoint, renderEndpoint,
      endpointLines_agree fun name _ => agree name, ih]

/-! ## The catalog -/

theorem object?_eq_some_iff {registry : Registry} {name : String} {object : SchemaObject}
    (distinct : (registry.objects.map (·.name)).Nodup) :
    registry.object? name = some object ↔ object ∈ registry.objects ∧ object.name = name := by
  constructor
  · intro found
    exact ⟨List.mem_of_find?_eq_some found, name_eq_of_find? found⟩
  · rintro ⟨registered, rfl⟩
    have present : registry.hasObject object.name = true :=
      List.any_eq_true.mpr ⟨object, registered, by simp⟩
    obtain ⟨found, found_eq, named⟩ := object?_of_hasObject present
    have same : found = object := List.inj_on_of_nodup_map distinct
      (List.mem_of_find?_eq_some found_eq) registered named
    rw [found_eq, same]

/-- Sorting forgets the order of registration. -/
theorem renderCatalog_agree (one : (first.objects.map (·.name)).Nodup)
    (two : (second.objects.map (·.name)).Nodup)
    (agree : ∀ name, first.object? name = second.object? name) :
    renderCatalog first = renderCatalog second := by
  have sorted : sortByName first.objects = sortByName second.objects := by
    apply eq_of_increasing (sortByName_increasing one) (sortByName_increasing two)
    intro object
    have known := agree object.name
    rw [Option.ext_iff] at known
    have same := known object
    rw [object?_eq_some_iff one, object?_eq_some_iff two] at same
    rw [(sortByName_perm _).mem_iff, (sortByName_perm _).mem_iff]
    simpa using same
  rw [renderCatalog, renderCatalog, objectSections, objectSections, sorted]

end

/-- Printing reads what can be reached. Two registries that have the same object, or both none,
under each name that an endpoint leads to print the same section for it or fail alike. Two
registries with the same endpoints in the same order and the same object under each name, each
name taken once, print the same handbook, with and without the catalog, in whatever order the
objects were registered and whatever else the registries hold. -/
theorem printing_reads_reachable_objects (first second : Registry) :
    (∀ endpoint : Endpoint,
      (∀ name, LeadsTo first endpoint name → first.object? name = second.object? name) →
      renderEndpoint first endpoint = renderEndpoint second endpoint) ∧
    (first.endpoints = second.endpoints →
      (first.objects.map (·.name)).Nodup → (second.objects.map (·.name)).Nodup →
      (∀ name, first.object? name = second.object? name) →
      ∀ catalog, renderDocument first catalog = renderDocument second catalog) := by
  constructor
  · intro endpoint agree
    rw [renderEndpoint, renderEndpoint, endpointLines_agree agree]
  · intro endpoints one two agree catalog
    rw [renderDocument, renderDocument, endpoints, renderEndpoints_agree agree,
      renderCatalog_agree one two agree]

theorem LeadsTo.reachable {registry : Registry} {endpoint : Endpoint} {name : String}
    (reached : LeadsTo registry endpoint name) :
    Reachable registry.objects endpoint.payloads name := by
  induction reached with
  | payload listed => exact .start listed
  | through _ found listed mentions ih =>
    exact .through ih found (mem_memberReferences.mpr ⟨_, listed, mentions⟩)

/-- An object that the loan does not lead to leaves its section alone, and the handbook of the
loans does not show in which order their objects came. -/
theorem loans_printed_alike :
    let extended := { loans with objects := { name := "Shelf" } :: loans.objects }
    let turned := { loans with objects := loans.objects.reverse, symbols := ["Shelf"] }
    renderEndpoint loans loan = renderEndpoint extended loan ∧
    ∀ catalog, renderDocument loans catalog = renderDocument turned catalog := by
  intro extended turned
  have distinct : (loans.objects.map (·.name)).Nodup := by decide
  have distinct_turned : (turned.objects.map (·.name)).Nodup := by decide
  refine ⟨(printing_reads_reachable_objects loans extended).1 loan ?_,
    (printing_reads_reachable_objects loans turned).2 rfl distinct distinct_turned ?_⟩
  · intro name reached
    have known : name ∈ loans.objects.map (·.name) :=
      reached.reachable.mem_of_closed (by decide) (by decide)
    have other : name ≠ "Shelf" := by
      rintro rfl
      exact absurd known (by decide)
    exact (List.find?_cons_of_neg (by simpa using other.symm)).symm
  · intro name
    apply Option.ext
    intro object
    rw [object?_eq_some_iff distinct, object?_eq_some_iff distinct_turned, List.mem_reverse]

end ApiHandbook.Handbook
