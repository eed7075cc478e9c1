import Mathlib.Data.List.Nodup
import Mathlib.Data.List.Pairwise
import ApiHandbook.Proofs.Extraction.Names
import ApiHandbook.Proofs.Handbook.Links
import ApiHandbook.Proofs.Source.RoundTrip

/-!
# Anchors of a handbook

An id glues the name of a page to the name of an object with an underscore, and both names may
have underscores of their own. So anchors coincide exactly where one page's name continues
another's with a part that stands in front of an object's name on the other page, or where an
endpoint has the name of the catalog.
-/
namespace ApiHandbook.Handbook
open Schema Source Extraction

/-! ## The ids of a handbook, page by page -/

/-- A page by its name and the objects that have a section on it. -/
structure ObjectPage where
  name : String
  objects : List SchemaObject

def ObjectPage.ids (page : ObjectPage) : List String :=
  (sortByName page.objects).map fun object => anchorId page.name object.name

/-- An endpoint's page shows what its body and its response reach. -/
def sectionObjects (registry : Registry) (endpoint : Endpoint) : List SchemaObject :=
  match registry.object? endpoint.body, registry.object? endpoint.response with
  | some body, some response => relatedObjects registry (body.members ++ response.members)
  | _, _ => []

def endpointObjects (registry : Registry) (endpoint : Endpoint) : ObjectPage :=
  ⟨endpoint.name, sectionObjects registry endpoint⟩

/-- The pages of the endpoints and, on demand, the catalog of all objects. -/
def objectPages (registry : Registry) (catalog : Bool) : List ObjectPage :=
  registry.endpoints.map (endpointObjects registry) ++
    if catalog then [⟨globalPage, registry.objects⟩] else []

theorem mem_ids {page : ObjectPage} {id : String} :
    id ∈ page.ids ↔ ∃ object ∈ page.objects, anchorId page.name object.name = id := by
  simp only [ObjectPage.ids, List.mem_map, (sortByName_perm _).mem_iff]

theorem nodup_ids {page : ObjectPage} (distinct : (page.objects.map (·.name)).Nodup) :
    page.ids.Nodup := by
  have sorted : ((sortByName page.objects).map (·.name)).Nodup :=
    ((sortByName_perm _).map _).nodup_iff.mpr distinct
  have ids := sorted.map (anchorId_injective page.name)
  rwa [List.map_map] at ids

theorem sectionObjects_names_nodup (registry : Registry) (endpoint : Endpoint) :
    ((sectionObjects registry endpoint).map (·.name)).Nodup := by
  unfold sectionObjects
  split
  · exact relatedObjects_names_nodup _ _
  · exact List.nodup_nil

theorem object?_of_mem_sectionObjects {registry : Registry} {endpoint : Endpoint}
    {object : SchemaObject} (shown : object ∈ sectionObjects registry endpoint) :
    registry.object? object.name = some object := by
  unfold sectionObjects at shown
  split at shown
  · exact (mem_relatedObjects.mp shown).2
  · cases shown

theorem anchorIds_endpointPage {registry : Registry} {endpoint : Endpoint} {page : EndpointPage}
    (made : endpointPage registry endpoint = .ok page) :
    anchorIds page.lines = (endpointObjects registry endpoint).ids := by
  obtain ⟨header, query, body, response, body_eq, response_eq, rfl⟩ :=
    eq_pageOf_of_endpointPage made
  rw [anchorIds_pageOf, anchorIds_objectsParts, ObjectPage.ids, endpointObjects, sectionObjects,
    object?_of_object body_eq, object?_of_object response_eq]

theorem anchorIds_endpointPages {registry : Registry} {endpoints : List Endpoint}
    {pages : List EndpointPage} (made : endpointPages registry endpoints = .ok pages) :
    anchorIds (pages.flatMap (·.lines)) =
      (endpoints.map (endpointObjects registry)).flatMap ObjectPage.ids := by
  induction endpoints generalizing pages with
  | nil =>
    cases made
    rfl
  | cons endpoint rest ih =>
    obtain ⟨first, first_eq, made⟩ := ok_of_bind made
    obtain ⟨others, others_eq, made⟩ := ok_of_bind made
    cases made
    rw [List.flatMap_cons, anchorIds_append, anchorIds_endpointPage first_eq, ih others_eq,
      List.map_cons, List.flatMap_cons]

theorem anchorIds_documentLines {registry : Registry} {catalog : Bool}
    {lines : List (List Fragment)} (made : documentLines registry catalog = .ok lines) :
    anchorIds lines = (objectPages registry catalog).flatMap ObjectPage.ids := by
  obtain ⟨pages, pages_eq, made⟩ := ok_of_bind made
  cases made
  rw [anchorIds_append, anchorIds_endpointPages pages_eq, objectPages, List.flatMap_append]
  congr 1
  cases catalog with
  | false => rfl
  | true =>
    rw [if_pos rfl, if_pos rfl, catalogParts, anchorIds_append, anchorIds_plainLines,
      List.nil_append, anchorIds_objectsParts, List.flatMap_singleton, ObjectPage.ids]

/-! ## Where ids coincide -/

/-- One page's name continues the other's, and the part between them stands in front of an
object's name. -/
def Clash (page longer : ObjectPage) : Prop :=
  ∃ part, longer.name = page.name ++ "_" ++ part ∧
    ∃ object ∈ page.objects, ∃ other ∈ longer.objects, object.name = part ++ "_" ++ other.name

theorem not_clash_self (page : ObjectPage) : ¬ Clash page page := by
  rintro ⟨part, longer, _⟩
  have lengths := congrArg String.length longer
  rw [String.length_append, String.length_append] at lengths
  have glue : "_".length = 1 := rfl
  omega

/-- Behind equal beginnings the ids of two pages go on alike only if one has the other's name
behind the part by which its page's name is shorter. -/
theorem part_of_glued {middle name other : List Char}
    (same : '_' :: name = middle ++ '_' :: other) :
    middle = [] ∧ name = other ∨ ∃ part, middle = '_' :: part ∧ name = part ++ '_' :: other := by
  cases middle with
  | nil => exact .inl ⟨rfl, (List.cons.inj same).2⟩
  | cons c part =>
    obtain ⟨rfl, rest⟩ := List.cons.inj same
    exact .inr ⟨part, rfl, rest⟩

theorem anchorId_eq_iff {page name other otherName : String} :
    anchorId page name = anchorId other otherName ↔
      (page = other ∧ name = otherName) ∨
      (∃ part, other = page ++ "_" ++ part ∧ name = part ++ "_" ++ otherName) ∨
      ∃ part, page = other ++ "_" ++ part ∧ otherName = part ++ "_" ++ name := by
  constructor
  · intro same
    have chars : page.toList ++ '_' :: name.toList = other.toList ++ '_' :: otherName.toList := by
      simpa [anchorId] using congrArg String.toList same
    rcases List.append_eq_append_iff.mp chars with ⟨middle, longer, rest⟩ | ⟨middle, longer, rest⟩
    · rcases part_of_glued rest with ⟨rfl, names⟩ | ⟨part, rfl, names⟩
      · rw [List.append_nil] at longer
        exact .inl ⟨String.toList_inj.mp longer.symm, String.toList_inj.mp names⟩
      · exact .inr (.inl ⟨String.ofList part, by simp [← String.toList_inj, longer],
          by simp [← String.toList_inj, names]⟩)
    · rcases part_of_glued rest with ⟨rfl, names⟩ | ⟨part, rfl, names⟩
      · rw [List.append_nil] at longer
        exact .inl ⟨String.toList_inj.mp longer, String.toList_inj.mp names.symm⟩
      · exact .inr (.inr ⟨String.ofList part, by simp [← String.toList_inj, longer],
          by simp [← String.toList_inj, names]⟩)
  · rintro (⟨rfl, rfl⟩ | ⟨part, rfl, rfl⟩ | ⟨part, rfl, rfl⟩)
    · rfl
    · simp [anchorId, String.append_assoc]
    · simp [anchorId, String.append_assoc]

theorem disjoint_ids_iff {first second : ObjectPage} :
    List.Disjoint first.ids second.ids ↔
      (¬ Clash first second ∧ ¬ Clash second first) ∧
        (first.name = second.name →
          ∀ object ∈ first.objects, ∀ other ∈ second.objects, object.name ≠ other.name) := by
  constructor
  · intro apart
    have differ : ∀ object ∈ first.objects, ∀ other ∈ second.objects,
        anchorId first.name object.name ≠ anchorId second.name other.name :=
      fun object shown other listed same =>
        apart (mem_ids.mpr ⟨object, shown, rfl⟩) (mem_ids.mpr ⟨other, listed, same.symm⟩)
    refine ⟨⟨?_, ?_⟩, ?_⟩
    · rintro ⟨part, longer, object, shown, other, listed, names⟩
      exact differ object shown other listed
        (anchorId_eq_iff.mpr (.inr (.inl ⟨part, longer, names⟩)))
    · rintro ⟨part, longer, object, shown, other, listed, names⟩
      exact differ other listed object shown
        (anchorId_eq_iff.mpr (.inr (.inr ⟨part, longer, names⟩)))
    · intro pages object shown other listed names
      exact differ object shown other listed (anchorId_eq_iff.mpr (.inl ⟨pages, names⟩))
  · rintro ⟨⟨forwards, backwards⟩, own⟩ id in_first in_second
    obtain ⟨object, shown, rfl⟩ := mem_ids.mp in_first
    obtain ⟨other, listed, same⟩ := mem_ids.mp in_second
    rcases anchorId_eq_iff.mp same.symm with ⟨pages, names⟩ | ⟨part, longer, names⟩ |
      ⟨part, longer, names⟩
    · exact own pages object shown other listed names
    · exact forwards ⟨part, longer, object, shown, other, listed, names⟩
    · exact backwards ⟨part, longer, other, listed, object, shown, names⟩

/-- No two pages clash, and no endpoint with objects on its page is named like the catalog. -/
def AnchorsApart (registry : Registry) (catalog : Bool) : Prop :=
  (∀ first ∈ objectPages registry catalog, ∀ second ∈ objectPages registry catalog,
    ¬ Clash first second) ∧
  (catalog = true → ∀ endpoint ∈ registry.endpoints, endpoint.name = globalPage →
    sectionObjects registry endpoint = [])

theorem pairwise_clash_iff {pages : List ObjectPage} :
    pages.Pairwise (fun first second => ¬ Clash first second ∧ ¬ Clash second first) ↔
      ∀ first ∈ pages, ∀ second ∈ pages, ¬ Clash first second := by
  constructor
  · intro apart first listed second also
    have symmetric : Std.Symm fun first second => ¬ Clash first second ∧ ¬ Clash second first :=
      ⟨fun _ _ both => both.symm⟩
    have own : ∀ page ∈ pages, ¬ Clash page page ∧ ¬ Clash page page :=
      fun page _ => ⟨not_clash_self page, not_clash_self page⟩
    exact (apart.forall_of_forall own listed also).1
  · intro apart
    rw [List.pairwise_iff_forall_sublist]
    intro first second both
    have listed : first ∈ pages := both.subset (by simp)
    have also : second ∈ pages := both.subset (by simp)
    exact ⟨apart first listed second also, apart second also first listed⟩

/-- Endpoints have names of their own, so pages of one name are an endpoint's and the catalog. -/
theorem pairwise_named_iff {registry : Registry} (distinct : NamesDistinct registry)
    (catalog : Bool) :
    (objectPages registry catalog).Pairwise (fun first second => first.name = second.name →
        ∀ object ∈ first.objects, ∀ other ∈ second.objects, object.name ≠ other.name) ↔
      (catalog = true → ∀ endpoint ∈ registry.endpoints, endpoint.name = globalPage →
        sectionObjects registry endpoint = []) := by
  have names : registry.endpoints.Pairwise fun first second => first.name ≠ second.name :=
    List.pairwise_map.mp distinct.endpoints
  have own : (registry.endpoints.map (endpointObjects registry)).Pairwise fun first second =>
      first.name = second.name →
        ∀ object ∈ first.objects, ∀ other ∈ second.objects, object.name ≠ other.name :=
    List.pairwise_map.mpr (names.imp fun different same => absurd same different)
  cases catalog with
  | false => simpa [objectPages] using own
  | true =>
    rw [objectPages, if_pos rfl, List.pairwise_append]
    constructor
    · rintro ⟨_, _, apart⟩ _ endpoint registered named
      refine List.eq_nil_iff_forall_not_mem.mpr fun object shown => ?_
      have found := List.mem_of_find?_eq_some (object?_of_mem_sectionObjects shown)
      exact apart _ (List.mem_map_of_mem registered) _ (List.mem_singleton_self _) named
        object shown object found rfl
    · intro empty
      refine ⟨own, List.pairwise_singleton _ _, ?_⟩
      intro page listed catalogPage last named object shown
      obtain ⟨endpoint, registered, rfl⟩ := List.mem_map.mp listed
      rw [List.mem_singleton.mp last] at named
      have none : sectionObjects registry endpoint = [] := empty rfl endpoint registered named
      rw [endpointObjects, none] at shown
      cases shown

theorem nodup_anchorIds_iff {registry : Registry} {catalog : Bool} {lines : List (List Fragment)}
    (distinct : NamesDistinct registry) (made : documentLines registry catalog = .ok lines) :
    (anchorIds lines).Nodup ↔ AnchorsApart registry catalog := by
  have each : ∀ page ∈ objectPages registry catalog, page.ids.Nodup := by
    intro page listed
    rcases List.mem_append.mp listed with of_endpoint | last
    · obtain ⟨endpoint, _, rfl⟩ := List.mem_map.mp of_endpoint
      exact nodup_ids (sectionObjects_names_nodup registry endpoint)
    · cases catalog with
      | false => cases last
      | true =>
        rw [List.mem_singleton.mp last]
        exact nodup_ids distinct.objects
  rw [anchorIds_documentLines made, List.nodup_flatMap, and_iff_right each, AnchorsApart,
    ← pairwise_clash_iff, ← pairwise_named_iff distinct, ← List.pairwise_and_iff]
  exact List.Pairwise.iff fun _ _ => disjoint_ids_iff

theorem documentLines_ok (rules : Rules) (strict : Bool) (source : List Declaration)
    (catalog : Bool) :
    ∃ lines, documentLines (extract rules strict source).registry catalog = .ok lines := by
  have present : PayloadsPresent (extract rules strict source).registry :=
    extract_keeps (fun _ _ => PayloadsPresent.passStep) (collectAllSymbols_payloadsPresent source)
  obtain ⟨text, printed⟩ := renderDocument_ok present catalog
  rw [renderDocument_eq] at printed
  cases made : documentLines (extract rules strict source).registry catalog with
  | ok lines => exact ⟨lines, rfl⟩
  | error error =>
    rw [made] at printed
    cases printed

/-- Whatever was extracted can be printed, and its anchors are distinct exactly if no pages clash
and no endpoint is mistaken for the catalog. -/
theorem document_anchors_distinct_iff (rules : Rules) (strict : Bool) (source : List Declaration)
    (catalog : Bool) :
    ∃ lines, documentLines (extract rules strict source).registry catalog = .ok lines ∧
      renderDocument (extract rules strict source).registry catalog = .ok (shownDocument lines) ∧
      ((anchorIds lines).Nodup ↔
        AnchorsApart (extract rules strict source).registry catalog) := by
  obtain ⟨lines, made⟩ := documentLines_ok rules strict source catalog
  refine ⟨lines, made, ?_, nodup_anchorIds_iff (extract_namesDistinct rules strict source) made⟩
  rw [renderDocument_eq, made]
  rfl

/-! ## Two shops -/

/-- An endpoint whose body has one member. -/
def shopOf (name : String) (type : List String) : Declaration :=
  .node { kind := .record, name := name, conformances := ["Endpoint"] }
    [.node { kind := .field, name := "method", initializer := some ⟨.member, "get", []⟩ } [],
      .node { kind := .field, name := "path", initializer := some ⟨.string, "\"/\"", ["/"]⟩ } [],
      .objectOf "Header" [], .objectOf "Query" [], .objectOf "Body" [.ofType "item" (dotted type)],
      .objectOf "Response" []]

/-- A cart's price in a shop, and a price in the cart of a shop. -/
def shops : List Declaration :=
  [shopOf "Shop" ["Cart", "Item", "Price"], shopOf "Shop_Cart" ["Item", "Price"],
    .groupOf "Cart" [.groupOf "Item" [.objectOf "Price" []]],
    .groupOf "Item" [.objectOf "Price" []]]

theorem record_canonical {name : String} {conformances : List String} {children : List Declaration}
    (word : isWord name = true)
    (conforms : ∀ other ∈ conformances, isWord other = true ∧ other ≠ "where")
    (canonical : AllCanonical children) :
    (Declaration.node { kind := .record, name := name, conformances := conformances }
      children).Canonical :=
  ⟨.type (.inl rfl) word conforms (by simp) isTidy_empty ⟨rfl, rfl, rfl⟩, .inl rfl, canonical⟩

theorem field_canonical {name : String} {shape : Option TypeShape} {value : Option Initializer}
    (word : isWord name = true) (typed : ∀ type ∈ shape, type.Canonical)
    (valued : ∀ given ∈ value, given.Canonical) :
    (Declaration.node { kind := .field, name := name, shape := shape, initializer := value }
      []).Canonical :=
  ⟨.field rfl word (by simp) typed valued isTidy_empty ⟨rfl, rfl⟩, .inr rfl, trivial⟩

theorem objectOf_canonical {name : String} {fields : List Declaration} (word : isWord name = true)
    (canonical : AllCanonical fields) : (Declaration.objectOf name fields).Canonical :=
  record_canonical word (by decide) canonical

theorem shopOf_canonical {name : String} {type : List String} (word : isWord name = true)
    (path : IsTypePath type) : (shopOf name type).Canonical := by
  have method : Initializer.Canonical ⟨.member, "get", []⟩ := .member (by decide)
  have slash : Initializer.Canonical ⟨.string, "\"/\"", ["/"]⟩ :=
    .string (by simp : ∀ c ∈ "/".toList, c ≠ '"' ∧ c ≠ '\\' ∧ c ≠ '\n')
  have item : (Declaration.ofType "item" (dotted type)).Canonical :=
    field_canonical (by decide) (by rintro shape ⟨⟩; exact .plain path) (by simp)
  refine record_canonical word (by decide) ⟨?_, ?_, objectOf_canonical (by decide) trivial,
    objectOf_canonical (by decide) trivial, objectOf_canonical (by decide) ⟨item, trivial⟩,
    objectOf_canonical (by decide) trivial, trivial⟩
  · exact field_canonical (by decide) (by simp) (by rintro value ⟨⟩; exact method)
  · exact field_canonical (by decide) (by simp) (by rintro value ⟨⟩; exact slash)

theorem shops_canonical : AllCanonical shops := by
  have long : IsTypePath ["Cart", "Item", "Price"] :=
    ⟨List.cons_ne_nil _ _, by decide, by rintro part ⟨⟩; decide⟩
  have short : IsTypePath ["Item", "Price"] :=
    ⟨List.cons_ne_nil _ _, by decide, by rintro part ⟨⟩; decide⟩
  have item : (Declaration.groupOf "Item" [.objectOf "Price" []]).Canonical :=
    record_canonical (by decide) (by simp) ⟨objectOf_canonical (by decide) trivial, trivial⟩
  exact ⟨shopOf_canonical (by decide) long, shopOf_canonical (by decide) short,
    record_canonical (by decide) (by simp) ⟨item, trivial⟩, item, trivial⟩

def shopRegistry : Registry := (extract {} true (allPlaced 1 shops)).registry

/-- The registered endpoint. -/
def shopNamed (name : String) : Endpoint :=
  ⟨name, .get, "/", name ++ "_Header", name ++ "_Query", name ++ "_Body", name ++ "_Response"⟩

/-- The shops with the object that each of them refers to. -/
def shopPrices : List (String × String) :=
  [("Shop", "Cart_Item_Price"), ("Shop_Cart", "Item_Price")]

theorem price_on_page {name price : String} (listed : (name, price) ∈ shopPrices) :
    endpointObjects shopRegistry (shopNamed name) ∈ objectPages shopRegistry false ∧
      { name := price } ∈ (endpointObjects shopRegistry (shopNamed name)).objects := by
  have registered : ∀ shop ∈ shopPrices, shopNamed shop.1 ∈ shopRegistry.endpoints := by
    decide +kernel
  have payloads : ∀ shop ∈ shopPrices,
      shopRegistry.object? (shop.1 ++ "_Body") = some
        { name := shop.1 ++ "_Body", members := [⟨"item", .object shop.2, true, none, ""⟩] } ∧
      shopRegistry.object? (shop.1 ++ "_Response") = some { name := shop.1 ++ "_Response" } ∧
      shopRegistry.object? shop.2 = some { name := shop.2 } := by
    decide +kernel
  refine ⟨List.mem_append_left _ (List.mem_map_of_mem (registered _ listed)), ?_⟩
  obtain ⟨body, response, found⟩ := payloads _ listed
  rw [endpointObjects, sectionObjects, shopNamed, body, response]
  refine mem_relatedObjects.mpr ⟨.start ?_, found⟩
  simp [memberReferences, ValueType.references]

theorem shops_clash : ¬ AnchorsApart shopRegistry false := by
  intro apart
  obtain ⟨shop_page, shop_price⟩ := price_on_page (.head _ : ("Shop", _) ∈ shopPrices)
  obtain ⟨cart_page, cart_price⟩ :=
    price_on_page (.tail _ (.head _) : ("Shop_Cart", _) ∈ shopPrices)
  have pages : (shopNamed "Shop_Cart").name = (shopNamed "Shop").name ++ "_" ++ "Cart" := rfl
  have prices : "Cart_Item_Price" = "Cart" ++ "_" ++ "Item_Price" := rfl
  exact apart.1 _ shop_page _ cart_page ⟨"Cart", pages, _, shop_price, _, cart_price, prices⟩

/-- Both shops set the anchor `_Shop_Cart_Item_Price`. -/
theorem shop_anchors_coincide :
    ¬ ∀ (text : List Char) (source : List Declaration) (strict catalog : Bool)
      (lines : List (List Fragment)), parse text = .ok source →
        (extract {} strict source).raised = none →
        documentLines (extract {} strict source).registry catalog = .ok lines →
        (anchorIds lines).Nodup := by
  intro distinct
  have success : (extract {} true (allPlaced 1 shops)).raised = none := by decide +kernel
  obtain ⟨lines, made⟩ := documentLines_ok {} true (allPlaced 1 shops) false
  have nodup := distinct _ _ true false lines (parse_canonical shops_canonical) success made
  exact shops_clash
    ((nodup_anchorIds_iff (extract_namesDistinct {} true (allPlaced 1 shops)) made).mp nodup)

end ApiHandbook.Handbook
