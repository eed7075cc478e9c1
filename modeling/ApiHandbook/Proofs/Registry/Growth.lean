import Mathlib.Data.List.Basic
import ApiHandbook.Registry.Resolve

/-!
# How registries grow

Entries are added behind those that are there, and the first registration of a name wins. What a
type name stands for is read off symbols, scopes and wrappers alone.
-/
namespace ApiHandbook.Registry
open Schema Source

/-- Two registries in which every type name stands for the same. -/
structure SameTypes (before after : Registry) : Prop where
  symbols : after.symbols = before.symbols
  scopes : after.scopes = before.scopes
  wrappers : after.wrappers = before.wrappers

theorem SameTypes.refl (registry : Registry) : SameTypes registry registry := ⟨rfl, rfl, rfl⟩

theorem SameTypes.symm {before after : Registry} (same : SameTypes before after) :
    SameTypes after before :=
  ⟨same.symbols.symm, same.scopes.symm, same.wrappers.symm⟩

theorem SameTypes.trans {first second third : Registry} (one : SameTypes first second)
    (two : SameTypes second third) : SameTypes first third :=
  ⟨two.symbols.trans one.symbols, two.scopes.trans one.scopes, two.wrappers.trans one.wrappers⟩

theorem SameTypes.resolveShape_eq {before after : Registry} (same : SameTypes before after)
    (rules : Rules) (shape : TypeShape) (scope : Option String) (declaration : String)
    (field : Option String) :
    after.resolveShape rules shape scope declaration field =
      before.resolveShape rules shape scope declaration field := by
  have matches_eq : after.match? = before.match? := by
    funext target
    simp only [match?, same.symbols, same.wrappers]
  have scopes_eq : ∀ typeName scope, after.lookup typeName scope = before.lookup typeName scope := by
    intro typeName scope
    simp only [lookup, enclosingScopes, same.scopes]
  simp only [resolveShape, resolve, resolve?, matches_eq, scopes_eq]

/-- Objects of new names are added and errors recorded; all else stays as it is. -/
structure ObjectGrowth (before after : Registry) : Prop extends SameTypes before after where
  endpoints : after.endpoints = before.endpoints
  ordinaryEnums : after.ordinaryEnums = before.ordinaryEnums
  objects : ∃ added, after.objects = before.objects ++ added ∧
    ∀ object ∈ added, before.hasObject object.name = false
  errors : before.errors <+: after.errors

/-- No table loses an entry or changes the order of its entries. -/
structure Growth (before after : Registry) : Prop where
  symbols : after.symbols = before.symbols
  scopes : after.scopes = before.scopes
  wrappers : before.wrappers <+: after.wrappers
  objects : before.objects <+: after.objects
  endpoints : before.endpoints <+: after.endpoints
  errors : before.errors <+: after.errors

theorem Growth.refl (registry : Registry) : Growth registry registry :=
  ⟨rfl, rfl, List.prefix_rfl, List.prefix_rfl, List.prefix_rfl, List.prefix_rfl⟩

theorem Growth.trans {first second third : Registry} (one : Growth first second)
    (two : Growth second third) : Growth first third :=
  ⟨two.symbols.trans one.symbols, two.scopes.trans one.scopes, one.wrappers.trans two.wrappers,
    one.objects.trans two.objects, one.endpoints.trans two.endpoints, one.errors.trans two.errors⟩

theorem hasObject_iff (registry : Registry) (name : String) :
    registry.hasObject name = true ↔ name ∈ registry.objects.map (·.name) := by
  simp [hasObject]

theorem hasObject_mono {before after : Registry} {name : String}
    (grown : before.objects <+: after.objects) (found : before.hasObject name = true) :
    after.hasObject name = true := by
  rw [hasObject_iff] at found ⊢
  exact (grown.map _).subset found

theorem ObjectGrowth.objects_kept {before after : Registry} (grown : ObjectGrowth before after) :
    before.objects <+: after.objects := by
  obtain ⟨added, equal, _⟩ := grown.objects
  exact ⟨added, equal.symm⟩

theorem ObjectGrowth.growth {before after : Registry} (grown : ObjectGrowth before after) :
    Growth before after :=
  ⟨grown.symbols, grown.scopes, grown.wrappers ▸ List.prefix_rfl, grown.objects_kept,
    grown.endpoints ▸ List.prefix_rfl, grown.errors⟩

theorem ObjectGrowth.refl (registry : Registry) : ObjectGrowth registry registry :=
  ⟨.refl registry, rfl, rfl, ⟨[], by simp, by simp⟩, List.prefix_rfl⟩

theorem ObjectGrowth.trans {first second third : Registry} (one : ObjectGrowth first second)
    (two : ObjectGrowth second third) : ObjectGrowth first third := by
  obtain ⟨added, added_eq, added_new⟩ := one.objects
  obtain ⟨more, more_eq, more_new⟩ := two.objects
  refine ⟨one.toSameTypes.trans two.toSameTypes, two.endpoints.trans one.endpoints,
    two.ordinaryEnums.trans one.ordinaryEnums, ⟨added ++ more, ?_, ?_⟩, one.errors.trans two.errors⟩
  · rw [more_eq, added_eq, List.append_assoc]
  · intro object member
    rcases List.mem_append.mp member with old | new
    · exact added_new object old
    · -- A name that is new in the second registry was not in the first, which is a part of it.
      by_contra known
      rw [Bool.not_eq_false] at known
      have still := hasObject_mono one.objects_kept known
      rw [more_new object new] at still
      cases still

theorem record_growth (registry : Registry) (error : SchemaError) :
    ObjectGrowth registry (registry.record error) :=
  ⟨⟨rfl, rfl, rfl⟩, rfl, rfl, ⟨[], by simp [record], by simp⟩, List.prefix_append _ _⟩

theorem registerObject_growth (registry : Registry) (object : SchemaObject) :
    ObjectGrowth registry (registry.registerObject object) := by
  unfold registerObject
  split
  · exact record_growth registry _
  · rename_i absent
    refine ⟨⟨rfl, rfl, rfl⟩, rfl, rfl, ⟨[object], rfl, ?_⟩, List.prefix_rfl⟩
    intro added member
    rw [List.mem_singleton.mp member]
    exact Bool.not_eq_true _ ▸ absent

theorem addOrdinaryEnum_growth (registry : Registry) (name : String) :
    Growth registry (registry.addOrdinaryEnum name) :=
  ⟨rfl, rfl, List.prefix_rfl, List.prefix_rfl, List.prefix_rfl, List.prefix_rfl⟩

theorem registerWrapper_growth (registry : Registry) (wrapper : Wrapper) :
    Growth registry (registry.registerWrapper wrapper) := by
  unfold registerWrapper
  split
  · exact (record_growth registry _).growth
  · exact ⟨rfl, rfl, List.prefix_append _ _, List.prefix_rfl, List.prefix_rfl, List.prefix_rfl⟩

theorem registerEndpoint_growth (registry : Registry) (endpoint : Endpoint) :
    Growth registry (registry.registerEndpoint endpoint) := by
  unfold registerEndpoint
  split
  · exact (record_growth registry _).growth
  · exact ⟨rfl, rfl, List.prefix_rfl, List.prefix_rfl, List.prefix_append _ _, List.prefix_rfl⟩

/-- Dropping objects of other names keeps those that were there first, in front. -/
theorem objects_kept_by_keepObjects {before after : Registry} {names : List String}
    (grown : before.objects <+: after.objects)
    (older : ∀ object ∈ before.objects, object.name ∈ names) :
    before.objects <+: (after.keepObjects names).objects := by
  obtain ⟨added, equal⟩ := grown
  have kept : before.objects.filter (names.contains ·.name) = before.objects := by
    apply List.filter_eq_self.mpr
    intro object member
    simpa using older object member
  rw [keepObjects, ← equal, List.filter_append, kept]
  exact List.prefix_append _ _

/-- Dropping the objects that were added gives back the objects of before, in their order. -/
theorem ObjectGrowth.keepObjects_eq {before after : Registry} (grown : ObjectGrowth before after) :
    after.keepObjects (before.objects.map (·.name)) =
      { before with errors := after.errors } := by
  obtain ⟨added, equal, fresh⟩ := grown.objects
  have kept : after.objects.filter (fun object => (before.objects.map (·.name)).contains object.name)
      = before.objects := by
    rw [equal, List.filter_append]
    have old : before.objects.filter
        (fun object => (before.objects.map (·.name)).contains object.name) = before.objects := by
      apply List.filter_eq_self.mpr
      intro object member
      simpa using ⟨object, member, rfl⟩
    have new : added.filter
        (fun object => (before.objects.map (·.name)).contains object.name) = [] := by
      apply List.filter_eq_nil_iff.mpr
      intro object member known
      have absent := fresh object member
      rw [(hasObject_iff before object.name).mpr (by simpa using known)] at absent
      cases absent
    rw [old, new, List.append_nil]
  unfold keepObjects
  rw [kept, ← grown.symbols, ← grown.scopes, ← grown.wrappers, ← grown.endpoints,
    ← grown.ordinaryEnums]

end ApiHandbook.Registry
