import Mathlib.Data.List.Count
import Mathlib.Data.List.Nodup
import ApiHandbook.Proofs.Handbook.Fragments
import ApiHandbook.Proofs.Handbook.Rendering

/-!
# Links of an endpoint's section lead to its anchors

In a registry without open references, whatever the tables of the body, of the response and of
the related objects link to has its anchor in the same section, once. Related objects are those
that the body or the response reaches, so the tables of header and query can link to an object
that has no anchor there.
-/
namespace ApiHandbook.Handbook
open Schema

/-- Every reference of a registry is to a registered object. -/
def Closed (registry : Registry) : Prop :=
  ∀ name ∈ registry.references, registry.hasObject name = true

theorem anchorId_injective (page : String) : Function.Injective (anchorId page) := by
  intro first second same
  have texts := congrArg String.toList same
  rw [← String.toList_inj]
  simpa [anchorId] using texts

theorem object?_of_hasObject {registry : Registry} {name : String}
    (present : registry.hasObject name = true) :
    ∃ object, registry.object? name = some object ∧ object.name = name := by
  obtain ⟨object, found⟩ := object_of_hasObject present
  unfold Registry.object at found
  split at found
  · rename_i other other_eq
    exact ⟨other, other_eq, name_eq_of_find? other_eq⟩
  · cases found

theorem Closed.object? {registry : Registry} (closed : Closed registry) {object : SchemaObject}
    (registered : object ∈ registry.objects) {name : String}
    (mentioned : name ∈ memberReferences object.members) :
    ∃ found, registry.object? name = some found ∧ found.name = name := by
  apply object?_of_hasObject
  apply closed
  apply List.mem_append_right
  apply List.mem_append_left
  exact List.mem_flatMap.mpr ⟨object, registered, mentioned⟩

/-- The ids of a section: one for each related object. -/
theorem count_related {registry : Registry} {members : List Member} {page heading name : String} :
    (anchorIds (objectsParts page heading (relatedObjects registry members))).count
        (anchorId page name) =
      ((relatedObjects registry members).map (·.name)).count name := by
  have ids : anchorIds (objectsParts page heading (relatedObjects registry members)) =
      ((sortByName (relatedObjects registry members)).map (·.name)).map (anchorId page) := by
    rw [anchorIds_objectsParts, List.map_map]
    rfl
  rw [ids, List.count_map_of_injective _ _ (anchorId_injective page)]
  exact ((sortByName_perm _).map _).count_eq name

theorem count_reached {registry : Registry} {members : List Member} {page heading name : String}
    {object : SchemaObject} (reached : Reaches registry members name)
    (found : registry.object? name = some object) :
    (anchorIds (objectsParts page heading (relatedObjects registry members))).count
      (anchorId page name) = 1 := by
  have named : object.name = name := name_eq_of_find? found
  rw [count_related]
  apply List.count_eq_one_of_mem (relatedObjects_names_nodup registry members)
  rw [← named] at reached found ⊢
  exact List.mem_map_of_mem (mem_relatedObjects.mpr ⟨reached, found⟩)

theorem count_unreached {registry : Registry} {members : List Member} {page heading name : String}
    (apart : ¬ Reaches registry members name) :
    (anchorIds (objectsParts page heading (relatedObjects registry members))).count
      (anchorId page name) = 0 := by
  rw [count_related, List.count_eq_zero]
  intro listed
  obtain ⟨object, member, rfl⟩ := List.mem_map.mp listed
  exact apart (mem_relatedObjects.mp member).1

/-- The names that an endpoint's body and response reach. -/
def SectionReaches (registry : Registry) (endpoint : Endpoint) (name : String) : Prop :=
  ∃ body response, registry.object? endpoint.body = some body ∧
    registry.object? endpoint.response = some response ∧
    Reaches registry (body.members ++ response.members) name

theorem object?_of_object {registry : Registry} {name : String} {object : SchemaObject}
    (found : registry.object name = .ok object) : registry.object? name = some object := by
  unfold Registry.object at found
  split at found
  · cases found
    assumption
  · cases found

theorem Closed.payload {registry : Registry} {endpoint : Endpoint} (closed : Closed registry)
    (registered : endpoint ∈ registry.endpoints) (name : String)
    (payload : name ∈ endpoint.payloads) : ∃ object, registry.object name = .ok object := by
  apply object_of_hasObject
  apply closed
  exact List.mem_append_left _ (List.mem_flatMap.mpr ⟨endpoint, registered, payload⟩)

theorem memberReferences_append (first second : List Member) :
    memberReferences (first ++ second) = memberReferences first ++ memberReferences second :=
  List.flatMap_append

section
variable {registry : Registry} {endpoint : Endpoint} {header query body response : SchemaObject}
variable {name : String}

/-- In a closed registry, what body and response reach is registered. -/
theorem Closed.reached (closed : Closed registry)
    (body_found : registry.object? endpoint.body = some body)
    (response_found : registry.object? endpoint.response = some response)
    (reached : Reaches registry (body.members ++ response.members) name) :
    ∃ object, registry.object? name = some object ∧ object.name = name := by
  cases reached with
  | start listed =>
    rw [memberReferences_append, List.mem_append] at listed
    rcases listed with mentioned | mentioned
    · exact closed.object? (List.mem_of_find?_eq_some body_found) mentioned
    · exact closed.object? (List.mem_of_find?_eq_some response_found) mentioned
  | through _ found mentioned => exact closed.object? (List.mem_of_find?_eq_some found) mentioned

theorem Closed.count_eq_one (closed : Closed registry)
    (body_found : registry.object? endpoint.body = some body)
    (response_found : registry.object? endpoint.response = some response)
    (reached : Reaches registry (body.members ++ response.members) name) :
    (anchorIds (pageOf registry endpoint header query body response).lines).count
      (anchorId endpoint.name name) = 1 := by
  obtain ⟨object, found, _⟩ := closed.reached body_found response_found reached
  rw [anchorIds_pageOf]
  exact count_reached reached found

/-- A registered endpoint of a closed registry has its four payloads, so it has a section. -/
theorem Closed.endpointPage_ok (closed : Closed registry)
    (registered : endpoint ∈ registry.endpoints) :
    ∃ header query body response,
      endpointPage registry endpoint = .ok (pageOf registry endpoint header query body response) ∧
      registry.object? endpoint.body = some body ∧
      registry.object? endpoint.response = some response := by
  have payload := closed.payload registered
  obtain ⟨header, header_eq⟩ := payload endpoint.header (by simp [Endpoint.payloads])
  obtain ⟨query, query_eq⟩ := payload endpoint.query (by simp [Endpoint.payloads])
  obtain ⟨body, body_eq⟩ := payload endpoint.body (by simp [Endpoint.payloads])
  obtain ⟨response, response_eq⟩ := payload endpoint.response (by simp [Endpoint.payloads])
  refine ⟨header, query, body, response, ?_, object?_of_object body_eq,
    object?_of_object response_eq⟩
  rw [endpointPage, header_eq, query_eq, body_eq, response_eq]
  rfl

/-- What the tables of the body, the response and the related objects link to is reached. -/
theorem reaches_of_target {target : String}
    (listed : target ∈ targets ((pageOf registry endpoint header query body response).body ++
      (pageOf registry endpoint header query body response).response ++
      (pageOf registry endpoint header query body response).related)) :
    ∃ name, target = anchorId endpoint.name name ∧
      Reaches registry (body.members ++ response.members) name := by
  simp only [pageOf, targets_append, targets_payloadParts, List.mem_append, List.mem_map,
    mem_targets_objectsParts] at listed
  rcases listed with (⟨name, mentioned, rfl⟩ | ⟨name, mentioned, rfl⟩) |
    ⟨object, member, name, mentioned, rfl⟩
  · refine ⟨name, rfl, .start ?_⟩
    rw [memberReferences_append]
    exact List.mem_append_left _ mentioned
  · refine ⟨name, rfl, .start ?_⟩
    rw [memberReferences_append]
    exact List.mem_append_right _ mentioned
  · obtain ⟨reached, found⟩ := mem_relatedObjects.mp member
    exact ⟨name, rfl, .through reached found mentioned⟩

end

/-- Each link of the body, of the response and of the related objects leads to exactly one anchor
of its section. A link of the header or the query leads to exactly one if body or response reach
the object, and to none otherwise. -/
theorem section_links_anchored (registry : Registry) (endpoint : Endpoint)
    (closed : Closed registry) (registered : endpoint ∈ registry.endpoints) :
    ∃ page : EndpointPage,
      endpointPage registry endpoint = .ok page ∧
      renderEndpoint registry endpoint = .ok (joinLines (page.lines.map shownLine)) ∧
      (∀ target ∈ targets (page.body ++ page.response ++ page.related),
        (anchorIds page.lines).count target = 1) ∧
      ∀ target ∈ targets (page.header ++ page.query), ∃ name, target = anchorId endpoint.name name ∧
        (SectionReaches registry endpoint name → (anchorIds page.lines).count target = 1) ∧
        (¬ SectionReaches registry endpoint name → (anchorIds page.lines).count target = 0) := by
  obtain ⟨header, query, body, response, page_eq, body_found, response_found⟩ :=
    closed.endpointPage_ok registered
  refine ⟨_, page_eq, ?_, ?_, ?_⟩
  · rw [renderEndpoint, shown_endpointPage, page_eq]
    rfl
  · intro target listed
    obtain ⟨name, rfl, reached⟩ := reaches_of_target listed
    exact closed.count_eq_one body_found response_found reached
  · intro target listed
    simp only [pageOf, targets_append, targets_payloadParts, ← List.map_append, List.mem_map]
      at listed
    obtain ⟨name, _, rfl⟩ := listed
    refine ⟨name, rfl, ?_, ?_⟩
    · rintro ⟨otherBody, otherResponse, other_body, other_response, reached⟩
      rw [body_found] at other_body
      rw [response_found] at other_response
      cases other_body
      cases other_response
      exact closed.count_eq_one body_found response_found reached
    · intro apart
      rw [anchorIds_pageOf]
      exact count_unreached fun reached =>
        apart ⟨body, response, body_found, response_found, reached⟩

def loan : Endpoint :=
  ⟨"Loan", .post, "/loan", "Loan_Header", "Loan_Query", "Loan_Body", "Loan_Response"⟩

def loanHeader : SchemaObject :=
  { name := "Loan_Header", members := [⟨"card", .object "Card", true, none, ""⟩] }

def loanBody : SchemaObject :=
  { name := "Loan_Body", members := [⟨"books", .array (.object "Book"), true, none, ""⟩] }

def book : SchemaObject where
  name := "Book"
  members := [⟨"by", .oneOf "By" [("one", .object "Author"), ("none", .boolean)], true, none, ""⟩]

/-- Loans of books: the header refers to a card, the body to books, and books to their authors. -/
def loans : Registry where
  objects :=
    [loanHeader, { name := "Loan_Query" }, loanBody, { name := "Loan_Response" },
      { name := "Card" }, book,
      { name := "Author", members := [⟨"wrote", .array (.object "Book"), true, none, ""⟩] }]
  endpoints := [loan]

theorem loans_closed : Closed loans := by
  unfold Closed
  decide

def loanPage : EndpointPage :=
  pageOf loans loan loanHeader { name := "Loan_Query" } loanBody { name := "Loan_Response" }

/-- The author is linked to from a case of a book's member, and has its anchor. -/
theorem author_link_anchored : endpointPage loans loan = .ok loanPage ∧
    "_Loan_Author" ∈ targets loanPage.related ∧
    (anchorIds loanPage.lines).count "_Loan_Author" = 1 := by
  obtain ⟨page, page_eq, _, anchored, _⟩ :=
    section_links_anchored loans loan loans_closed List.mem_cons_self
  have page_is : page = loanPage := Except.ok.inj (page_eq.symm.trans rfl)
  have related : book ∈ relatedObjects loans (loanBody.members ++ []) :=
    mem_relatedObjects.mpr ⟨.start (by decide), rfl⟩
  have linked : "_Loan_Author" ∈ targets loanPage.related :=
    mem_targets_objectsParts.mpr ⟨book, related, "Author", by decide, rfl⟩
  rw [page_is, targets_append] at anchored
  exact ⟨rfl, linked, anchored _ (List.mem_append_right _ linked)⟩

/-- The card is linked to from the header alone. -/
theorem header_link_unanchored :
    ¬ ∀ (registry : Registry) (endpoint : Endpoint), Closed registry →
      endpoint ∈ registry.endpoints → ∀ page, endpointPage registry endpoint = .ok page →
        ∀ target ∈ targets page.lines, (anchorIds page.lines).count target = 1 := by
  intro anchored
  have header : targets loanPage.header = [anchorId "Loan" "Card"] := rfl
  have linked : anchorId "Loan" "Card" ∈ targets loanPage.lines := by
    simp [EndpointPage.lines, header]
  have found := anchored loans loan loans_closed List.mem_cons_self loanPage rfl _ linked
  have unreached : ¬ Reaches loans (loanBody.members ++ []) "Card" := by
    intro reached
    exact absurd (reached.mem_of_closed (by decide : ∀ start ∈ _, start ∈ ["Book", "Author"])
      (by decide)) (by decide)
  have none : (anchorIds loanPage.lines).count (anchorId "Loan" "Card") = 0 := by
    rw [loanPage, anchorIds_pageOf]
    exact count_unreached unreached
  omega

end ApiHandbook.Handbook
