import ApiHandbook.Extraction.Objects
import ApiHandbook.Proofs.Extraction.Basic

/-!
# Steps of the walk over objects

The walk registers objects whose member types can be resolved and records errors. It never
touches wrappers, symbols, scopes or endpoints, and every object it adds has a new name.
-/
namespace ApiHandbook.Extraction
open Schema Source
open Relation (ReflTransGen)

inductive ObjectStep (rules : Rules) (strict : Bool) : Registry → Registry → Prop
  | leftOut (registry : Registry) (error : SchemaError) (unsupported : error.isUnsupported = true) :
      ObjectStep rules strict registry (registry.record error)
  | tolerated (registry : Registry) (error : SchemaError) (lenient : strict = false) :
      ObjectStep rules strict registry (registry.record error)
  | registered (registry : Registry) (object : SchemaObject)
      (available : ∀ member ∈ object.members, Available rules registry member.valueType) :
      ObjectStep rules strict registry (registry.registerObject object)

theorem ObjectStep.growth {rules : Rules} {strict : Bool} {before after : Registry}
    (step : ObjectStep rules strict before after) : Registry.ObjectGrowth before after := by
  cases step with
  | leftOut error _ => exact Registry.record_growth before error
  | tolerated error _ => exact Registry.record_growth before error
  | registered object _ => exact Registry.registerObject_growth before object

theorem objectSteps_growth {rules : Rules} {strict : Bool} {before after : Registry}
    (steps : ReflTransGen (ObjectStep rules strict) before after) :
    Registry.ObjectGrowth before after :=
  steps_keep (fun _ _ last grown => grown.trans last.growth) steps (Registry.ObjectGrowth.refl before)

theorem memberOf_ok {rules : Rules} {registry : Registry} {object : String} {field : Heading}
    {shape : TypeShape} {member : Member}
    (made : memberOf rules registry object field shape = .ok member) :
    Available rules registry member.valueType := by
  obtain ⟨typed, resolved, made⟩ := ok_of_bind made
  cases made
  exact .inr ⟨_, _, _, _, typed.2, resolved⟩

theorem memberOf_error_fatal {rules : Rules} {registry : Registry} {object : String}
    {field : Heading} {shape : TypeShape} {error : SchemaError}
    (failed : memberOf rules registry object field shape = .error error)
    (supported : error.isUnsupported = false) : error.isFatal = true := by
  rcases error_of_bind failed with resolved | ⟨typed, _, made⟩
  · exact resolveShape_error_fatal resolved supported
  · cases made

/-- Collecting members only records errors, so the members have types of the registry that the
object is added to. -/
theorem collectMembers_ok {rules : Rules} (strict : Bool) {object : String} {fields : List Heading}
    {before after : Registry} {members : List Member}
    (collected : collectMembers rules object before fields = .ok (after, members)) :
    ReflTransGen (ObjectStep rules strict) before after ∧ after.objects = before.objects ∧
      ∀ member ∈ members, Available rules after member.valueType := by
  fun_induction collectMembers rules object before fields generalizing members with
  | case1 before =>
    cases collected
    exact ⟨.refl, rfl, by simp⟩
  | case2 before field rest shape stored shape_eq member made ih =>
    obtain ⟨⟨registry, others⟩, rest_eq, collected⟩ := ok_of_bind collected
    cases collected
    obtain ⟨steps, objects, available⟩ := ih rest_eq
    refine ⟨steps, objects, ?_⟩
    intro entry belongs
    rcases List.mem_cons.mp belongs with rfl | other
    · exact (memberOf_ok made).mono (objectSteps_growth steps).toSameTypes
    · exact available entry other
  | case3 before field rest shape stored shape_eq error failed unsupported ih =>
    obtain ⟨steps, objects, available⟩ := ih collected
    exact ⟨steps.head (.leftOut before error unsupported), objects, available⟩
  | case4 before field rest shape stored shape_eq error failed supported => cases collected
  | case5 before field rest skipped ih => exact ih collected

theorem collectMembers_error {rules : Rules} {strict : Bool} {object : String}
    {fields : List Heading} {before : Registry} {stopped : Stopped}
    (failed : collectMembers rules object before fields = .error stopped) :
    ReflTransGen (ObjectStep rules strict) before stopped.registry ∧
      stopped.error.isFatal = true := by
  fun_induction collectMembers rules object before fields with
  | case1 before => cases failed
  | case2 before field rest shape stored shape_eq member made ih =>
    rcases error_of_bind failed with rest_eq | ⟨result, _, failed⟩
    · exact ih rest_eq
    · cases failed
  | case3 before field rest shape stored shape_eq error made unsupported ih =>
    obtain ⟨steps, fatal⟩ := ih failed
    exact ⟨steps.head (.leftOut before error unsupported), fatal⟩
  | case4 before field rest shape stored shape_eq error made supported =>
    cases failed
    exact ⟨.refl, memberOf_error_fatal made (Bool.not_eq_true _ ▸ supported)⟩
  | case5 before field rest skipped ih => exact ih failed

theorem finishObject_run (rules : Rules) (strict : Bool) (name : String) (heading : Heading)
    (children : List Declaration) (registry : Registry) :
    RunBy (ObjectStep rules strict) registry
      (finishObject rules name heading children registry) := by
  unfold finishObject
  cases collected : collectMembers rules name registry (Declaration.fieldHeadings children) with
  | error stopped =>
    obtain ⟨steps, fatal⟩ := collectMembers_error collected
    exact .failed steps fatal
  | ok result =>
    obtain ⟨after, members⟩ := result
    obtain ⟨steps, _, available⟩ := collectMembers_ok strict collected
    refine ⟨steps.tail (.registered after _ ?_), nofun⟩
    intro member belongs
    dsimp only at belongs
    split at belongs
    · rcases List.mem_cons.mp belongs with rfl | other
      · exact .inl rfl
      · exact available member other
    · exact available member belongs

theorem walkAllObjects_run (rules : Rules) (strict : Bool) (declarations : List Declaration)
    (scope : Option String) (registry : Registry) :
    RunBy (ObjectStep rules strict) registry
      (walkAllObjects rules strict scope registry declarations) := by
  induction declarations using Declaration.forest_induction generalizing scope registry with
  | nil => exact .done registry
  | cons heading children rest inner after =>
    rw [walkAllObjects, walkObjects]
    refine RunBy.bind ?_ (after scope)
    split
    · exact .done registry
    · dsimp only
      split
      · apply RunBy.tolerate (fun lenient registry error => .tolerated registry error lenient)
        exact (inner _ registry).bind (finishObject_run rules strict _ heading children)
      · exact inner _ registry

theorem walkAllObjects_lenient (rules : Rules) (declarations : List Declaration)
    (scope : Option String) (registry : Registry) :
    ∃ after, walkAllObjects rules false scope registry declarations = .ok after := by
  induction declarations using Declaration.forest_induction generalizing scope registry with
  | nil => exact ⟨registry, rfl⟩
  | cons heading children rest inner after =>
    rw [walkAllObjects, walkObjects]
    apply ok_bind _ (after scope)
    split
    · exact ⟨registry, rfl⟩
    · dsimp only
      split
      · exact tolerate_lenient _
      · exact inner _ registry

/-- One declaration is walked as a list of one. -/
theorem walkObjects_eq_walkAllObjects (rules : Rules) (strict : Bool) (scope : Option String)
    (registry : Registry) (declaration : Declaration) :
    walkObjects rules strict scope registry declaration =
      walkAllObjects rules strict scope registry [declaration] := by
  rw [walkAllObjects]
  cases walkObjects rules strict scope registry declaration <;> rfl

theorem extractObject_run (rules : Rules) (strict : Bool) (scope : Option String)
    (registry : Registry) (declaration : Declaration) :
    RunBy (ObjectStep rules strict) registry
      (extractObject rules strict scope registry declaration) := by
  obtain ⟨heading, children⟩ := declaration
  exact (walkAllObjects_run rules strict children _ registry).bind
    (finishObject_run rules strict _ heading children)

end ApiHandbook.Extraction
