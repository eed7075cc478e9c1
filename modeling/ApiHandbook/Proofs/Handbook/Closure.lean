import Mathlib.Data.List.Sort
import ApiHandbook.Proofs.Handbook.Related
import ApiHandbook.Proofs.Registry.References

/-!
# The related objects of some members

The objects that are collected for some members are exactly the registered ones that the members
lead to, in the order of their names. So they depend on the registered names that the members
mention and on nothing else about them, and collecting from what has been collected changes
nothing.
-/
namespace ApiHandbook.Handbook
open Schema

/-- The type names an object, directly or through arrays and cases. -/
inductive Mentions (name : String) : ValueType → Prop
  | object : Mentions name (.object name)
  | array {item : ValueType} (inside : Mentions name item) : Mentions name (.array item)
  | oneOf {wrapper : String} {cases : List (String × ValueType)} {entry : String × ValueType}
      (listed : entry ∈ cases) (inside : Mentions name entry.2) :
      Mentions name (.oneOf wrapper cases)

/-- The names that members lead to. A name without an object leads no further. -/
inductive Related (registry : Registry) (members : List Member) : String → Prop
  | mentioned {name : String} {member : Member} (listed : member ∈ members)
      (mentions : Mentions name member.valueType) : Related registry members name
  | through {name other : String} {object : SchemaObject} {member : Member}
      (related : Related registry members name) (found : registry.object? name = some object)
      (listed : member ∈ object.members) (mentions : Mentions other member.valueType) :
      Related registry members other

/-! ## What a type names -/

mutual

theorem Mentions.of_references {name : String} :
    (type : ValueType) → name ∈ type.references → Mentions name type
  | .object other, mentioned => by
    rw [ValueType.references, List.mem_singleton] at mentioned
    rw [mentioned]
    exact .object
  | .array item, mentioned => by
    rw [ValueType.references] at mentioned
    exact .array (Mentions.of_references item mentioned)
  | .oneOf wrapper cases, mentioned => by
    rw [ValueType.references] at mentioned
    obtain ⟨entry, listed, inside⟩ := Mentions.of_caseReferences cases mentioned
    exact .oneOf listed inside
  | .unknown, mentioned | .string, mentioned | .number, mentioned | .boolean, mentioned => by
    cases mentioned

theorem Mentions.of_caseReferences {name : String} :
    (cases : List (String × ValueType)) → name ∈ caseReferences cases →
      ∃ entry ∈ cases, Mentions name entry.2
  | [], mentioned => by cases mentioned
  | (label, type) :: rest, mentioned => by
    rw [caseReferences, List.mem_append] at mentioned
    rcases mentioned with first | later
    · exact ⟨(label, type), List.mem_cons_self, Mentions.of_references type first⟩
    · obtain ⟨entry, listed, inside⟩ := Mentions.of_caseReferences rest later
      exact ⟨entry, List.mem_cons_of_mem _ listed, inside⟩

end

theorem Mentions.mem_references {name : String} {type : ValueType} (mentions : Mentions name type) :
    name ∈ type.references := by
  induction mentions with
  | object => exact List.mem_singleton_self name
  | array _ ih =>
    rw [ValueType.references]
    exact ih
  | oneOf listed _ ih =>
    rw [ValueType.references]
    exact mem_caseReferences.mpr ⟨_, listed, ih⟩

theorem mem_memberReferences {name : String} {members : List Member} :
    name ∈ memberReferences members ↔ ∃ member ∈ members, Mentions name member.valueType := by
  rw [memberReferences, List.mem_flatMap]
  constructor
  · rintro ⟨member, listed, mentioned⟩
    exact ⟨member, listed, .of_references _ mentioned⟩
  · rintro ⟨member, listed, mentions⟩
    exact ⟨member, listed, mentions.mem_references⟩

theorem related_iff_reaches {registry : Registry} {members : List Member} {name : String} :
    Related registry members name ↔ Reaches registry members name := by
  constructor
  · intro related
    induction related with
    | mentioned listed mentions => exact .start (mem_memberReferences.mpr ⟨_, listed, mentions⟩)
    | through _ found listed mentions ih =>
      exact .through ih found (mem_memberReferences.mpr ⟨_, listed, mentions⟩)
  · intro reached
    induction reached with
    | start named =>
      obtain ⟨member, listed, mentions⟩ := mem_memberReferences.mp named
      exact .mentioned listed mentions
    | through _ found named ih =>
      obtain ⟨member, listed, mentions⟩ := mem_memberReferences.mp named
      exact .through ih found listed mentions

theorem mem_relatedObjects_iff {registry : Registry} {members : List Member}
    {object : SchemaObject} :
    object ∈ relatedObjects registry members ↔
      registry.object? object.name = some object ∧ Related registry members object.name := by
  rw [mem_relatedObjects, related_iff_reaches]
  exact and_comm

/-! ## The order of names -/

theorem sortByName_ordered (objects : List SchemaObject) :
    (sortByName objects).Pairwise (fun first second => first.name ≤ second.name) := by
  apply List.Pairwise.imp (fun {_ _} ordered => of_decide_eq_true ordered)
  apply List.pairwise_mergeSort
  · intro first second third one two
    simp only [decide_eq_true_eq] at one two ⊢
    exact String.le_trans one two
  · intro first second
    simp only [Bool.or_eq_true, decide_eq_true_eq]
    exact String.le_total first.name second.name

theorem sortByName_increasing {objects : List SchemaObject}
    (distinct : (objects.map (·.name)).Nodup) :
    (sortByName objects).Pairwise (fun first second => first.name < second.name) := by
  have apart : ((sortByName objects).map (·.name)).Nodup :=
    ((sortByName_perm _).map _).nodup_iff.mpr distinct
  rw [List.Nodup, List.pairwise_map] at apart
  exact ((sortByName_ordered objects).and apart).imp fun both => Std.lt_of_le_of_ne both.1 both.2

theorem relatedObjects_increasing (registry : Registry) (members : List Member) :
    (relatedObjects registry members).Pairwise (fun first second => first.name < second.name) :=
  sortByName_increasing (reach_names_nodup _ _)

/-- Objects in the order of their names are told by which they are. -/
theorem eq_of_increasing {first second : List SchemaObject}
    (one : first.Pairwise (fun a b => a.name < b.name))
    (two : second.Pairwise (fun a b => a.name < b.name))
    (same : ∀ object, object ∈ first ↔ object ∈ second) : first = second := by
  have irreflexive : Std.Irrefl (fun a b : SchemaObject => a.name < b.name) :=
    ⟨fun object => String.lt_irrefl object.name⟩
  have antisymmetric : Std.Antisymm (fun a b : SchemaObject => a.name < b.name) :=
    ⟨fun a b less greater => absurd (String.lt_trans less greater) (String.lt_irrefl a.name)⟩
  exact one.eq_of_mem_iff two same

/-! ## Members that lead to the same objects -/

/-- The same registered names are mentioned by two lists of members. -/
def MentionAlike (registry : Registry) (members others : List Member) : Prop :=
  ∀ name, registry.hasObject name = true →
    ((∃ member ∈ members, Mentions name member.valueType) ↔
      ∃ member ∈ others, Mentions name member.valueType)

theorem hasObject_of_object? {registry : Registry} {name : String} {object : SchemaObject}
    (found : registry.object? name = some object) : registry.hasObject name = true := by
  have named := List.find?_some found
  exact List.any_eq_true.mpr ⟨object, List.mem_of_find?_eq_some found, named⟩

theorem Related.alike {registry : Registry} {members others : List Member} {name : String}
    (alike : MentionAlike registry members others) (present : registry.hasObject name = true)
    (related : Related registry members name) : Related registry others name := by
  induction related with
  | mentioned listed mentions =>
    obtain ⟨member, listed, mentions⟩ := (alike _ present).mp ⟨_, listed, mentions⟩
    exact .mentioned listed mentions
  | through _ found listed mentions ih =>
    exact .through (ih (hasObject_of_object? found)) found listed mentions

theorem relatedObjects_congr {registry : Registry} {members others : List Member}
    (same : ∀ object, registry.object? object.name = some object →
      (Related registry members object.name ↔ Related registry others object.name)) :
    relatedObjects registry others = relatedObjects registry members := by
  apply eq_of_increasing (relatedObjects_increasing ..) (relatedObjects_increasing ..)
  intro object
  rw [mem_relatedObjects_iff, mem_relatedObjects_iff]
  exact and_congr_right fun found => (same object found).symm

theorem relatedObjects_alike {registry : Registry} {members others : List Member}
    (alike : MentionAlike registry members others) :
    relatedObjects registry others = relatedObjects registry members := by
  apply relatedObjects_congr
  intro object found
  have present := hasObject_of_object? found
  exact ⟨.alike alike present, .alike (fun name known => (alike name known).symm) present⟩

/-- A member that refers to an object; whatever else it says does not count. -/
def refersTo (member : Member) (object : SchemaObject) : Member :=
  { member with valueType := .object object.name }

theorem related_of_refersTo {registry : Registry} {objects : List SchemaObject}
    {shell : SchemaObject → Member} {object : SchemaObject} (listed : object ∈ objects) :
    Related registry (objects.map fun object => refersTo (shell object) object) object.name :=
  .mentioned (List.mem_map_of_mem listed) .object

/-- From members that refer to related objects nothing new is reached. -/
theorem Related.of_refersTo {registry : Registry} {members : List Member}
    {shell : SchemaObject → Member} {name : String}
    (related : Related registry
      ((relatedObjects registry members).map fun object => refersTo (shell object) object) name) :
    Related registry members name := by
  induction related with
  | mentioned listed mentions =>
    obtain ⟨object, collected, rfl⟩ := List.mem_map.mp listed
    cases mentions
    exact (mem_relatedObjects_iff.mp collected).2
  | through _ found listed mentions ih => exact .through ih found listed mentions

/-- The related objects of some members are exactly the registered objects that the members lead
to, each once, in the order of their names by code points. References to names that are not
registered contribute nothing: members that mention the same registered names have the same
related objects. Collecting again from one reference to each related object gives them back. -/
theorem related_objects_exact (registry : Registry) (members : List Member) :
    (∀ object, object ∈ relatedObjects registry members ↔
      registry.object? object.name = some object ∧ Related registry members object.name) ∧
    (relatedObjects registry members).Pairwise (fun first second => first.name < second.name) ∧
    (∀ others, MentionAlike registry members others →
      relatedObjects registry others = relatedObjects registry members) ∧
    ∀ shell : SchemaObject → Member,
      relatedObjects registry
          ((relatedObjects registry members).map fun object => refersTo (shell object) object) =
        relatedObjects registry members := by
  refine ⟨fun _ => mem_relatedObjects_iff, relatedObjects_increasing registry members,
    fun _ => relatedObjects_alike, ?_⟩
  intro shell
  apply relatedObjects_congr
  intro object found
  constructor
  · intro related
    exact related_of_refersTo (mem_relatedObjects_iff.mpr ⟨found, related⟩)
  · exact Related.of_refersTo

/-- An order that is made for a customer, through whom it is reached again, and that pays by a card
which is not documented. -/
def orders : Registry where
  objects :=
    [{ name := "Order", members := [⟨"by", .object "Customer", true, none, ""⟩,
        ⟨"pays", .oneOf "Pay" [("card", .object "Card"), ("cash", .number)], true, none, ""⟩] },
      { name := "Item" },
      { name := "Customer", members := [⟨"orders", .array (.object "Order"), false, none, ""⟩] }]

/-- The customer of an order is related to it, and a reference to the card adds nothing. -/
theorem orders_related :
    let order : Member := ⟨"order", .array (.object "Order"), false, none, ""⟩
    let card : Member := ⟨"card", .object "Card", true, none, ""⟩
    "Customer" ∈ (relatedObjects orders [order]).map (·.name) ∧
    relatedObjects orders [order, card] = relatedObjects orders [order] := by
  intro order card
  obtain ⟨collected, -, alike, -⟩ := related_objects_exact orders [order]
  refine ⟨?_, alike [order, card] ?_⟩
  · have first : Related orders [order] "Order" := .mentioned List.mem_cons_self (.array .object)
    have customer : Related orders [order] "Customer" :=
      .through first rfl List.mem_cons_self .object
    exact List.mem_map_of_mem ((collected ⟨"Customer", _, _⟩).mpr ⟨rfl, customer⟩)
  · intro name present
    simp only [List.mem_cons, List.not_mem_nil, or_false, exists_eq_left, exists_eq_or_imp]
    refine ⟨.inl, fun either => either.resolve_right fun mentions => ?_⟩
    cases mentions
    exact absurd present (by decide)

end ApiHandbook.Handbook
