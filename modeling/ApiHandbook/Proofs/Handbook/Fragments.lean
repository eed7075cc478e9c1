import ApiHandbook.Handbook.Document
import ApiHandbook.Proofs.Except
import ApiHandbook.Proofs.Handbook.Related

/-!
# Links and anchors of the handbook

The lines of a page as stretches of plain text, links to objects and anchors of objects. Put into
words they are the lines that are printed, so the links and anchors of a page can be counted.
-/
namespace ApiHandbook.Handbook
open Schema Text

/-! ## Lines in parts -/

inductive Fragment where
  | text (content : String)
  | link (page name : String)
  | anchor (page name : String)
  deriving DecidableEq, Repr

namespace Fragment

def shown : Fragment → String
  | text content => content
  | link page name => objectLink page name
  | anchor page name => objectAnchor page name

/-- The id that a link leads to. -/
def target? : Fragment → Option String
  | link page name => some (anchorId page name)
  | _ => none

/-- The id that an anchor sets. -/
def id? : Fragment → Option String
  | anchor page name => some (anchorId page name)
  | _ => none

end Fragment

def shownLine : List Fragment → String
  | [] => ""
  | fragment :: rest => fragment.shown ++ shownLine rest

def targets (lines : List (List Fragment)) : List String :=
  lines.flatMap (·.filterMap Fragment.target?)

def anchorIds (lines : List (List Fragment)) : List String :=
  lines.flatMap (·.filterMap Fragment.id?)

@[simp] theorem shownLine_append (first second : List Fragment) :
    shownLine (first ++ second) = shownLine first ++ shownLine second := by
  induction first with
  | nil => simp [shownLine]
  | cons fragment rest ih => simp [shownLine, ih, String.append_assoc]

@[simp] theorem shownLine_text (content : String) : shownLine [.text content] = content := by
  simp [shownLine, Fragment.shown]

theorem shownLine_intercalate (separator : String) (parts : List (List Fragment)) :
    shownLine ([Fragment.text separator].intercalate parts) =
      separator.intercalate (parts.map shownLine) := by
  induction parts with
  | nil => rfl
  | cons part parts ih =>
    cases parts with
    | nil => simp
    | cons next parts => simp_all [shownLine, Fragment.shown, String.append_assoc]

@[simp] theorem targets_append (first second : List (List Fragment)) :
    targets (first ++ second) = targets first ++ targets second := List.flatMap_append

@[simp] theorem anchorIds_append (first second : List (List Fragment)) :
    anchorIds (first ++ second) = anchorIds first ++ anchorIds second := List.flatMap_append

/-- Lines of plain text. -/
def plainLines (lines : List String) : List (List Fragment) := lines.map fun line => [.text line]

@[simp] theorem shown_plainLines (lines : List String) :
    (plainLines lines).map shownLine = lines := by
  simp [plainLines, Function.comp_def]

@[simp] theorem targets_plainLines (lines : List String) : targets (plainLines lines) = [] := by
  simp [targets, plainLines, List.flatMap_map, Fragment.target?]

@[simp] theorem anchorIds_plainLines (lines : List String) : anchorIds (plainLines lines) = [] := by
  simp [anchorIds, plainLines, List.flatMap_map, Fragment.id?]

/-! ## Value types -/

mutual

def describeParts (page : String) : ValueType → List Fragment
  | .object name => [.link page name, .text " object"]
  | .array item => .text "array of " :: describeParts page item
  | .oneOf _ cases => .text "one of " :: [Fragment.text ", "].intercalate (caseParts page cases)
  | type => [.text (describe page type)]

def caseParts (page : String) : List (String × ValueType) → List (List Fragment)
  | [] => []
  | (_, type) :: rest => describeParts page type :: caseParts page rest

end

mutual

theorem shown_describeParts (page : String) :
    (type : ValueType) → shownLine (describeParts page type) = describe page type
  | .unknown | .string | .number | .boolean => by simp [describeParts, describe]
  | .object name => by simp [describeParts, describe, shownLine, Fragment.shown]
  | .array item => by
    simp [describeParts, describe, shownLine, Fragment.shown, shown_describeParts page item]
  | .oneOf _ cases => by
    simp [describeParts, describe, shownLine, Fragment.shown, shownLine_intercalate,
      shown_caseParts page cases]

theorem shown_caseParts (page : String) :
    (cases : List (String × ValueType)) →
      (caseParts page cases).map shownLine = describeCases page cases
  | [] => rfl
  | (_, type) :: rest => by
    rw [caseParts, List.map_cons, describeCases, shown_describeParts, shown_caseParts]

end

theorem filterMap_intercalate {β : Type} (test : Fragment → Option β) {separator : Fragment}
    (none_of : test separator = none) (parts : List (List Fragment)) :
    ([separator].intercalate parts).filterMap test = parts.flatMap (·.filterMap test) := by
  induction parts with
  | nil => rfl
  | cons part parts ih =>
    cases parts with
    | nil => simp
    | cons next parts => simp_all

mutual

/-- A type in words links to the objects that it refers to, in reading order. -/
theorem targets_describeParts (page : String) :
    (type : ValueType) → (describeParts page type).filterMap Fragment.target? =
      type.references.map (anchorId page)
  | .unknown | .string | .number | .boolean => by
    simp [describeParts, ValueType.references, Fragment.target?]
  | .object name => by simp [describeParts, ValueType.references, Fragment.target?]
  | .array item => by
    rw [describeParts, ValueType.references, List.filterMap_cons_none (by rfl),
      targets_describeParts page item]
  | .oneOf _ cases => by
    rw [describeParts, ValueType.references, List.filterMap_cons_none (by rfl),
      filterMap_intercalate _ (by rfl), targets_caseParts page cases]

theorem targets_caseParts (page : String) :
    (cases : List (String × ValueType)) →
      (caseParts page cases).flatMap (·.filterMap Fragment.target?) =
        (caseReferences cases).map (anchorId page)
  | [] => rfl
  | (_, type) :: rest => by
    rw [caseParts, List.flatMap_cons, targets_describeParts, targets_caseParts, caseReferences,
      List.map_append]

end

mutual

theorem ids_describeParts (page : String) :
    (type : ValueType) → (describeParts page type).filterMap Fragment.id? = []
  | .unknown | .string | .number | .boolean => by simp [describeParts, Fragment.id?]
  | .object name => by simp [describeParts, Fragment.id?]
  | .array item => by
    rw [describeParts, List.filterMap_cons_none (by rfl), ids_describeParts page item]
  | .oneOf _ cases => by
    rw [describeParts, List.filterMap_cons_none (by rfl), filterMap_intercalate _ (by rfl),
      ids_caseParts page cases]

theorem ids_caseParts (page : String) :
    (cases : List (String × ValueType)) →
      (caseParts page cases).flatMap (·.filterMap Fragment.id?) = []
  | [] => rfl
  | (_, type) :: rest => by
    rw [caseParts, List.flatMap_cons, ids_describeParts, ids_caseParts, List.append_nil]

end

/-! ## Tables and sections -/

def memberParts (page : String) (member : Member) : List Fragment :=
  .text ("|" ++ snakeCase member.key ++ "|") :: describeParts page member.valueType ++
    [.text ("|" ++ (if member.isRequired then "true" else "false") ++ "|" ++
      cellText (member.defaultValue.getD "") ++ "|" ++ cellText member.comment ++ "|")]

theorem shown_memberParts (page : String) (member : Member) :
    shownLine (memberParts page member) = tableRow (memberCells page member) := by
  simp [memberParts, tableRow, memberCells, shownLine, Fragment.shown, shown_describeParts,
    String.append_assoc]

theorem targets_memberParts (page : String) (member : Member) :
    (memberParts page member).filterMap Fragment.target? =
      member.valueType.references.map (anchorId page) := by
  rw [memberParts, List.cons_append, List.filterMap_cons_none (by rfl), List.filterMap_append,
    targets_describeParts, List.filterMap_cons_none (by rfl), List.filterMap_nil, List.append_nil]

theorem ids_memberParts (page : String) (member : Member) :
    (memberParts page member).filterMap Fragment.id? = [] := by
  rw [memberParts, List.cons_append, List.filterMap_cons_none (by rfl), List.filterMap_append,
    ids_describeParts, List.filterMap_cons_none (by rfl), List.filterMap_nil, List.append_nil]

def tableParts (page : String) (members : List Member) : List (List Fragment) :=
  plainLines ["|Key|ValueType|Required|Default|Description|", "|---|---|---|---|---|"] ++
    members.map (memberParts page)

theorem shown_tableParts (page : String) (members : List Member) :
    (tableParts page members).map shownLine = propertyTable page members := by
  simp [tableParts, propertyTable, shown_memberParts]

@[simp] theorem targets_tableParts (page : String) (members : List Member) :
    targets (tableParts page members) = (memberReferences members).map (anchorId page) := by
  have rows : targets (members.map (memberParts page)) =
      (memberReferences members).map (anchorId page) := by
    simp only [targets, List.flatMap_map, targets_memberParts, memberReferences, List.map_flatMap]
  rw [tableParts, targets_append, targets_plainLines, List.nil_append, rows]

@[simp] theorem anchorIds_tableParts (page : String) (members : List Member) :
    anchorIds (tableParts page members) = [] := by
  have rows : anchorIds (members.map (memberParts page)) = [] := by
    simp [anchorIds, List.flatMap_map, ids_memberParts]
  rw [tableParts, anchorIds_append, anchorIds_plainLines, List.nil_append, rows]

def payloadParts (page title : String) (members : List Member) : List (List Fragment) :=
  plainLines ["## " ++ title, ""] ++ tableParts page members ++ plainLines ("" :: separator)

def objectParts (page heading : String) (object : SchemaObject) : List (List Fragment) :=
  [.text (heading ++ " "), .anchor page object.name] ::
    (plainLines ["", if object.comment.isEmpty then "No description" else object.comment, "",
        heading ++ "# Properties", ""] ++
      tableParts page object.members ++ plainLines ("" :: separator))

def objectsParts (page heading : String) (objects : List SchemaObject) : List (List Fragment) :=
  (sortByName objects).flatMap (objectParts page heading)

theorem shown_payloadParts (page title : String) (members : List Member) :
    (payloadParts page title members).map shownLine = payloadSection page title members := by
  simp [payloadParts, payloadSection, shown_tableParts]

theorem shown_objectParts (page heading : String) (object : SchemaObject) :
    (objectParts page heading object).map shownLine = objectSection page heading object := by
  simp [objectParts, objectSection, shown_tableParts, shownLine, Fragment.shown,
    String.append_assoc]

theorem shown_objectsParts (page heading : String) (objects : List SchemaObject) :
    (objectsParts page heading objects).map shownLine = objectSections page heading objects := by
  simp [objectsParts, objectSections, List.map_flatMap, shown_objectParts]

@[simp] theorem targets_payloadParts (page title : String) (members : List Member) :
    targets (payloadParts page title members) = (memberReferences members).map (anchorId page) := by
  simp [payloadParts]

@[simp] theorem anchorIds_payloadParts (page title : String) (members : List Member) :
    anchorIds (payloadParts page title members) = [] := by
  simp [payloadParts]

theorem targets_objectParts (page heading : String) (object : SchemaObject) :
    targets (objectParts page heading object) =
      (memberReferences object.members).map (anchorId page) := by
  have first : targets [[.text (heading ++ " "), .anchor page object.name]] = [] := rfl
  rw [objectParts, ← List.singleton_append, targets_append, first]
  simp

theorem anchorIds_objectParts (page heading : String) (object : SchemaObject) :
    anchorIds (objectParts page heading object) = [anchorId page object.name] := by
  have first : anchorIds [[.text (heading ++ " "), .anchor page object.name]] =
      [anchorId page object.name] := rfl
  rw [objectParts, ← List.singleton_append, anchorIds_append, first]
  simp

theorem mem_targets_objectsParts {page heading target : String} {objects : List SchemaObject} :
    target ∈ targets (objectsParts page heading objects) ↔
      ∃ object ∈ objects, ∃ name ∈ memberReferences object.members,
        target = anchorId page name := by
  have split : targets (objectsParts page heading objects) =
      (sortByName objects).flatMap fun object => targets (objectParts page heading object) :=
    List.flatMap_assoc
  rw [split]
  simp only [List.mem_flatMap, targets_objectParts, List.mem_map, (sortByName_perm _).mem_iff,
    eq_comm]

/-- Sections of objects set one anchor for each object. -/
theorem anchorIds_objectsParts (page heading : String) (objects : List SchemaObject) :
    anchorIds (objectsParts page heading objects) =
      (sortByName objects).map fun object => anchorId page object.name := by
  have split : anchorIds (objectsParts page heading objects) =
      (sortByName objects).flatMap fun object => anchorIds (objectParts page heading object) :=
    List.flatMap_assoc
  rw [split]
  simp only [anchorIds_objectParts]
  exact List.map_eq_flatMap.symm

/-! ## Pages -/

/-- An endpoint's section, table by table. -/
structure EndpointPage where
  opening : List (List Fragment)
  header : List (List Fragment)
  query : List (List Fragment)
  body : List (List Fragment)
  response : List (List Fragment)
  related : List (List Fragment)

def EndpointPage.lines (page : EndpointPage) : List (List Fragment) :=
  page.opening ++ page.header ++ page.query ++ page.body ++ page.response ++
    plainLines ["## Related Objects", ""] ++ page.related

/-- The section of an endpoint whose payloads are given. -/
def pageOf (registry : Registry) (endpoint : Endpoint)
    (header query body response : SchemaObject) : EndpointPage where
  opening := plainLines ["## " ++ endpoint.method.label ++ " : " ++ endpoint.name, "",
    "**Path** : " ++ endpoint.path, "**Method** : " ++ endpoint.method.label, ""]
  header := payloadParts endpoint.name "Header" header.members
  query := payloadParts endpoint.name "Query" query.members
  body := payloadParts endpoint.name "Body" body.members
  response := payloadParts endpoint.name "Response" response.members
  related := objectsParts endpoint.name "###"
    (relatedObjects registry (body.members ++ response.members))

def endpointPage (registry : Registry) (endpoint : Endpoint) :
    Except SchemaError EndpointPage := do
  let header ← registry.object endpoint.header
  let query ← registry.object endpoint.query
  let body ← registry.object endpoint.body
  let response ← registry.object endpoint.response
  return pageOf registry endpoint header query body response

theorem eq_pageOf_of_endpointPage {registry : Registry} {endpoint : Endpoint} {page : EndpointPage}
    (made : endpointPage registry endpoint = .ok page) :
    ∃ header query body response, registry.object endpoint.body = .ok body ∧
      registry.object endpoint.response = .ok response ∧
      page = pageOf registry endpoint header query body response := by
  obtain ⟨header, _, made⟩ := ok_of_bind made
  obtain ⟨query, _, made⟩ := ok_of_bind made
  obtain ⟨body, body_eq, made⟩ := ok_of_bind made
  obtain ⟨response, response_eq, made⟩ := ok_of_bind made
  cases made
  exact ⟨header, query, body, response, body_eq, response_eq, rfl⟩

/-- Only related objects have anchors. -/
theorem anchorIds_pageOf (registry : Registry) (endpoint : Endpoint)
    (header query body response : SchemaObject) :
    anchorIds (pageOf registry endpoint header query body response).lines =
      anchorIds (objectsParts endpoint.name "###"
        (relatedObjects registry (body.members ++ response.members))) := by
  simp [EndpointPage.lines, pageOf]

theorem shown_endpointPage (registry : Registry) (endpoint : Endpoint) :
    endpointLines registry endpoint =
      (endpointPage registry endpoint).map fun page => page.lines.map shownLine := by
  unfold endpointLines endpointPage
  cases registry.object endpoint.header with
  | error error => rfl
  | ok header =>
    cases registry.object endpoint.query with
    | error error => rfl
    | ok query =>
      cases registry.object endpoint.body with
      | error error => rfl
      | ok body =>
        cases registry.object endpoint.response with
        | error error => rfl
        | ok response =>
          simp [bind, Except.bind, pure, Except.pure, Except.map, EndpointPage.lines,
            pageOf, shown_payloadParts, shown_objectsParts]

/-! ## The document -/

/-- Lines that end with a blank one behind a line that is not blank, which is how sections end. -/
def EndsBlank (lines : List String) : Prop :=
  ∃ front last c, lines = front ++ [last, ""] ∧ last.toList.getLast? = some c ∧ c ≠ '\n'

theorem EndsBlank.append {lines : List String} (blank : EndsBlank lines) (before : List String) :
    EndsBlank (before ++ lines) := by
  obtain ⟨front, last, c, rfl, last_eq, visible⟩ := blank
  exact ⟨before ++ front, last, c, by simp, last_eq, visible⟩

theorem endsBlank_objectSection (page heading : String) (object : SchemaObject) :
    EndsBlank (objectSection page heading object) := by
  have rule : EndsBlank ("" :: separator) := ⟨[""], "---", '-', rfl, rfl, by decide⟩
  exact rule.append _

/-- A title and the sections of some objects, perhaps none. -/
theorem endsBlank_sections {title : String} {c : Char} (page heading : String)
    (objects : List SchemaObject) (visible : title.toList.getLast? = some c) (solid : c ≠ '\n') :
    EndsBlank ([title, ""] ++ objectSections page heading objects) := by
  unfold objectSections
  cases sorted : (sortByName objects).eq_nil_or_concat with
  | inl none =>
    rw [none]
    exact ⟨[], title, c, rfl, visible, solid⟩
  | inr some =>
    obtain ⟨front, last, sorted_eq⟩ := some
    rw [sorted_eq, List.concat_eq_append, List.flatMap_append, List.flatMap_singleton,
      ← List.append_assoc]
    exact (endsBlank_objectSection page heading last).append _

theorem joinLines_append {first second : List String} (some_first : first ≠ [])
    (some_second : second ≠ []) :
    joinLines (first ++ second) = joinLines first ++ "\n" ++ joinLines second := by
  induction first with
  | nil => exact absurd rfl some_first
  | cons line rest ih =>
    obtain ⟨next, others, rfl⟩ := List.exists_cons_of_ne_nil some_second
    cases rest with
    | nil => simp [joinLines, String.append_assoc]
    | cons following rest =>
      have later := ih (List.cons_ne_nil _ _)
      simp_all [joinLines, String.append_assoc]

theorem trimLineEnds_append_lineEnd {text : List Char} {c : Char} (visible : c ≠ '\n') :
    trimLineEnds (String.ofList (text ++ [c, '\n'])) = String.ofList (text ++ [c]) := by
  simp [trimLineEnds, visible]

/-- Trimming takes the blank line off the end of a section. -/
theorem trimLineEnds_endsBlank {lines : List String} (blank : EndsBlank lines) :
    ∃ front, lines = front ++ [""] ∧ front ≠ [] ∧
      trimLineEnds (joinLines lines) = joinLines front := by
  obtain ⟨front, last, c, rfl, last_eq, visible⟩ := blank
  refine ⟨front ++ [last], by simp, by simp, ?_⟩
  obtain ⟨before, last_chars⟩ := List.getLast?_eq_some_iff.mp last_eq
  have ends : ∃ text, (joinLines (front ++ [last])).toList = text ++ [c] := by
    cases front with
    | nil => exact ⟨before, by simp [joinLines, last_chars]⟩
    | cons line front =>
      rw [joinLines_append (List.cons_ne_nil _ _) (List.cons_ne_nil _ _)]
      exact ⟨(joinLines (line :: front)).toList ++ '\n' :: before,
        by simp [joinLines, last_chars]⟩
  obtain ⟨text, text_eq⟩ := ends
  have whole : joinLines (front ++ [last, ""]) = String.ofList (text ++ [c, '\n']) := by
    have split : front ++ [last, ""] = (front ++ [last]) ++ [""] := by simp
    rw [split, joinLines_append (by simp) (by simp), ← String.toList_inj, String.toList_append,
      String.toList_append, text_eq]
    simp [joinLines]
  rw [whole, trimLineEnds_append_lineEnd visible, ← text_eq, String.ofList_toList]

/-- Trimmed sections with blank lines between them are the sections' lines. -/
theorem joinSections {sections : List (List String)} (some_section : sections ≠ [])
    (blank : ∀ lines ∈ sections, EndsBlank lines) :
    "\n\n".intercalate (sections.map fun lines => trimLineEnds (joinLines lines)) ++ "\n" =
      joinLines sections.flatten := by
  induction sections with
  | nil => exact absurd rfl some_section
  | cons first rest ih =>
    obtain ⟨front, first_eq, some_front, trimmed⟩ :=
      trimLineEnds_endsBlank (blank first List.mem_cons_self)
    have first_join : joinLines first = joinLines front ++ "\n" := by
      rw [first_eq, joinLines_append some_front (List.cons_ne_nil _ _)]
      simp [joinLines]
    cases rest with
    | nil =>
      rw [List.map_singleton, trimmed, List.flatten_singleton, first_join]
      simp
    | cons next rest =>
      have later := ih (List.cons_ne_nil _ _) fun lines member =>
        blank lines (List.mem_cons_of_mem _ member)
      have some_first : first ≠ [] := by simp [first_eq]
      have some_rest : (next :: rest).flatten ≠ [] := by
        obtain ⟨_, _, _, next_eq, _, _⟩ := blank next (by simp)
        simp [next_eq]
      rw [List.flatten_cons, joinLines_append some_first some_rest, ← later, first_join]
      simp [trimmed, String.append_assoc]

def catalogParts (registry : Registry) : List (List Fragment) :=
  plainLines ["## Objects", ""] ++ objectsParts globalPage "###" registry.objects

def endpointPages (registry : Registry) : List Endpoint → Except SchemaError (List EndpointPage)
  | [] => .ok []
  | endpoint :: rest => do
    let first ← endpointPage registry endpoint
    return first :: (← endpointPages registry rest)

/-- All lines of a handbook. -/
def documentLines (registry : Registry) (catalog : Bool) :
    Except SchemaError (List (List Fragment)) := do
  let pages ← endpointPages registry registry.endpoints
  return pages.flatMap (·.lines) ++ if catalog then catalogParts registry else []

/-- The text of a handbook; one without sections is a single line end. -/
def shownDocument (lines : List (List Fragment)) : String :=
  if lines = [] then "\n" else joinLines (lines.map shownLine)

theorem renderEndpoints_eq (registry : Registry) (endpoints : List Endpoint) :
    renderEndpoints registry endpoints =
      (endpointPages registry endpoints).map fun pages =>
        pages.map fun page => joinLines (page.lines.map shownLine) := by
  induction endpoints with
  | nil => rfl
  | cons endpoint rest ih =>
    rw [renderEndpoints, endpointPages, ih, renderEndpoint, shown_endpointPage]
    cases endpointPage registry endpoint with
    | error error => rfl
    | ok first => cases endpointPages registry rest <;> rfl

theorem shown_catalogParts (registry : Registry) :
    (catalogParts registry).map shownLine =
      ["## Objects", ""] ++ objectSections globalPage "###" registry.objects := by
  simp [catalogParts, shown_objectsParts]

theorem endsBlank_pageOf (registry : Registry) (endpoint : Endpoint)
    (header query body response : SchemaObject) :
    EndsBlank ((pageOf registry endpoint header query body response).lines.map shownLine) := by
  have related := endsBlank_sections endpoint.name "###"
    (relatedObjects registry (body.members ++ response.members))
    (rfl : "## Related Objects".toList.getLast? = some 's') (by decide)
  have tail_eq : (plainLines ["## Related Objects", ""] ++
      (pageOf registry endpoint header query body response).related).map shownLine =
        ["## Related Objects", ""] ++ objectSections endpoint.name "###"
          (relatedObjects registry (body.members ++ response.members)) := by
    simp [pageOf, shown_objectsParts]
  rw [EndpointPage.lines, List.append_assoc, List.map_append, tail_eq]
  exact related.append _

theorem endsBlank_endpointPages {registry : Registry} {endpoints : List Endpoint}
    {pages : List EndpointPage} (made : endpointPages registry endpoints = .ok pages) :
    ∀ page ∈ pages, EndsBlank (page.lines.map shownLine) := by
  induction endpoints generalizing pages with
  | nil =>
    cases made
    intro page member
    cases member
  | cons endpoint rest ih =>
    obtain ⟨first, first_eq, made⟩ := ok_of_bind made
    obtain ⟨others, others_eq, made⟩ := ok_of_bind made
    cases made
    intro page member
    rcases List.mem_cons.mp member with rfl | later
    · obtain ⟨header, query, body, response, _, _, rfl⟩ := eq_pageOf_of_endpointPage first_eq
      exact endsBlank_pageOf _ _ _ _ _ _
    · exact ih others_eq page later

theorem shownDocument_flatten {sections : List (List (List Fragment))}
    (blank : ∀ lines ∈ sections, EndsBlank (lines.map shownLine)) :
    "\n\n".intercalate (sections.map fun lines => trimLineEnds (joinLines (lines.map shownLine))) ++
      "\n" = shownDocument sections.flatten := by
  cases sections with
  | nil => rfl
  | cons first rest =>
    have some_line : (first :: rest).flatten ≠ [] := by
      obtain ⟨_, _, _, first_eq, _, _⟩ := blank first List.mem_cons_self
      have some_first : first ≠ [] := by
        rintro rfl
        simp at first_eq
      simp [some_first]
    have blanks : ∀ lines ∈ (first :: rest).map (·.map shownLine), EndsBlank lines := by
      intro lines member
      obtain ⟨own, listed, rfl⟩ := List.mem_map.mp member
      exact blank own listed
    have joined := joinSections (by simp) blanks
    rw [List.map_map] at joined
    rw [shownDocument, if_neg some_line, List.map_flatten]
    exact joined

/-- The printed handbook is the text of its lines. -/
theorem renderDocument_eq (registry : Registry) (catalog : Bool) :
    renderDocument registry catalog = (documentLines registry catalog).map shownDocument := by
  unfold renderDocument documentLines
  rw [renderEndpoints_eq]
  cases made : endpointPages registry registry.endpoints with
  | error error => rfl
  | ok pages =>
    have blank := endsBlank_endpointPages made
    have of_pages : ∀ lines ∈ pages.map (·.lines), EndsBlank (lines.map shownLine) := by
      intro lines member
      obtain ⟨page, listed, rfl⟩ := List.mem_map.mp member
      exact blank page listed
    cases catalog with
    | false =>
      have text := shownDocument_flatten of_pages
      simpa [bind, Except.bind, pure, Except.pure, Except.map, Function.comp_def,
        List.flatMap_def] using text
    | true =>
      have of_catalog : EndsBlank ((catalogParts registry).map shownLine) := by
        rw [shown_catalogParts]
        exact endsBlank_sections _ _ _ (rfl : "## Objects".toList.getLast? = some 's') (by decide)
      have of_both : ∀ lines ∈ pages.map (·.lines) ++ [catalogParts registry],
          EndsBlank (lines.map shownLine) := by
        intro lines member
        rcases List.mem_append.mp member with page | last
        · exact of_pages lines page
        · rw [List.mem_singleton.mp last]
          exact of_catalog
      have text := shownDocument_flatten of_both
      simpa [bind, Except.bind, pure, Except.pure, Except.map, Function.comp_def,
        List.flatMap_def, renderCatalog, shown_catalogParts] using text

end ApiHandbook.Handbook
