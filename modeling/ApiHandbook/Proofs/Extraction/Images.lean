import ApiHandbook.Proofs.Extraction.Coverage
import ApiHandbook.Proofs.Extraction.Records
import ApiHandbook.Proofs.Extraction.Rollback

/-!
# Objects show their records

Every object that an extraction leaves shows one record of the source: its name, its comment and
its documented fields, with the types that they have in the registry at the end. Later passes
change no type and take no error back, so what an object showed when it was registered it still
shows at the end. Every endpoint is read from a record as well.
-/
namespace ApiHandbook.Extraction
open Schema Source Text
open Registry (SameTypes)

/-- The member that shows a field, with the type that it has in a registry. -/
structure ShowsField (rules : Rules) (registry : Registry) (object : String) (field : Heading)
    (member : Member) : Prop where
  key : member.key = field.name
  comment : member.comment = field.comment
  defaultValue : member.defaultValue = field.initializer.bind (·.literal rules.segmentSeparator)
  typed : ∃ shape, field.shape = some shape ∧
    (member.isRequired = true ↔ shape.kind = .plain) ∧
    registry.resolveShape rules shape (some object) object (some field.name) =
      .ok (member.valueType, member.isRequired)

/-- The object that shows a record: a member that tells its type if it is nominal, then one for
each documented field, in order. Every other stored field is a recorded error. -/
structure Shows (rules : Rules) (registry : Registry) (record : Occurrence)
    (object : SchemaObject) : Prop where
  isObject : record.heading.isObject = true
  name : object.name = record.name
  comment : object.comment = record.heading.comment
  members : ∃ members,
    object.members =
      (if record.heading.isNominal then
        ⟨"type", .string, true, some (snakeCase record.name), "The type name"⟩ :: members
      else members) ∧
    List.Forall₂ (ShowsField rules registry record.name)
      ((Declaration.fieldHeadings record.children).filter (·.isDocumented)) members
  leftOut : ∀ field ∈ Declaration.fieldHeadings record.children, field.isStoredField = true →
    ∀ shape, field.shape = some shape → shape.isNamed = false →
      .unsupported shape.text (some record.name) (some field.name) ∈ registry.errors

theorem ShowsField.mono {rules : Rules} {before after : Registry} {object : String}
    {field : Heading} {member : Member} (same : SameTypes before after)
    (shown : ShowsField rules before object field member) :
    ShowsField rules after object field member := by
  obtain ⟨shape, shape_eq, required, resolved⟩ := shown.typed
  refine ⟨shown.key, shown.comment, shown.defaultValue, shape, shape_eq, required, ?_⟩
  rw [same.resolveShape_eq, resolved]

theorem Shows.mono {rules : Rules} {before after : Registry} {record : Occurrence}
    {object : SchemaObject} (same : SameTypes before after)
    (errors : before.errors <+: after.errors) (shown : Shows rules before record object) :
    Shows rules after record object := by
  obtain ⟨members, members_eq, fields⟩ := shown.members
  refine ⟨shown.isObject, shown.name, shown.comment, ⟨members, members_eq, ?_⟩, ?_⟩
  · exact fields.imp fun _ _ => ShowsField.mono same
  · intro field listed stored shape shape_eq unnamed
    exact errors.subset (shown.leftOut field listed stored shape shape_eq unnamed)

/-! ## One record -/

theorem resolveShape_required {registry : Registry} {rules : Rules} {shape : TypeShape}
    {scope : Option String} {declaration : String} {field : Option String} {type : ValueType}
    {required : Bool}
    (resolved : registry.resolveShape rules shape scope declaration field = .ok (type, required)) :
    required = true ↔ shape.kind = .plain := by
  unfold Registry.resolveShape at resolved
  split at resolved
  · cases resolved
  · cases resolved
  · obtain ⟨found, _, made⟩ := ok_of_bind resolved
    split at made <;> cases made <;> simp_all

theorem resolveShape_unnamed {shape : TypeShape} (unnamed : shape.isNamed = false)
    (registry : Registry) (rules : Rules) (scope : Option String) (declaration : String)
    (field : Option String) :
    registry.resolveShape rules shape scope declaration field =
      .error (.unsupported shape.text (some declaration) field) := by
  obtain ⟨kind, name, text⟩ := shape
  cases name with
  | none => cases kind <;> rfl
  | some name =>
    cases kind with
    | unsupported => rfl
    | _ => cases unnamed

theorem memberOf_shows {rules : Rules} {registry : Registry} {object : String} {field : Heading}
    {shape : TypeShape} {member : Member} (shape_eq : field.shape = some shape)
    (made : memberOf rules registry object field shape = .ok member) :
    ShowsField rules registry object field member := by
  obtain ⟨typed, resolved, made⟩ := ok_of_bind made
  cases made
  exact ⟨rfl, rfl, rfl, shape, shape_eq, resolveShape_required resolved, resolved⟩

/-- Whether the members can be collected or not, nothing but errors is added. -/
theorem collectMembers_stopped {rules : Rules} {object : String} {fields : List Heading}
    {before : Registry} {stopped : Stopped}
    (failed : collectMembers rules object before fields = .error stopped) :
    ∃ recorded, stopped.registry = { before with errors := before.errors ++ recorded } := by
  fun_induction collectMembers rules object before fields with
  | case1 before => cases failed
  | case2 before field rest shape stored shape_eq member made ih =>
    rcases error_of_bind failed with rest_eq | ⟨result, _, failed⟩
    · exact ih rest_eq
    · cases failed
  | case3 before field rest shape stored shape_eq error made unsupported ih =>
    obtain ⟨recorded, left⟩ := ih failed
    exact ⟨error :: recorded, by simp [left, Registry.record]⟩
  | case4 before field rest shape stored shape_eq error made supported =>
    cases failed
    exact ⟨[], by simp⟩
  | case5 before field rest skipped ih => exact ih failed

theorem collectMembers_leftOut {rules : Rules} {object : String} {fields : List Heading}
    {before after : Registry} {members : List Member}
    (collected : collectMembers rules object before fields = .ok (after, members)) :
    ∀ field ∈ fields, field.isStoredField = true → ∀ shape, field.shape = some shape →
      shape.isNamed = false →
      .unsupported shape.text (some object) (some field.name) ∈ after.errors := by
  fun_induction collectMembers rules object before fields generalizing members with
  | case1 before => simp
  | case2 before field rest shape stored shape_eq member made ih =>
    obtain ⟨⟨registry, others⟩, rest_eq, collected⟩ := ok_of_bind collected
    cases collected
    intro other listed other_stored written written_eq unnamed
    rcases List.mem_cons.mp listed with rfl | later
    · rw [shape_eq] at written_eq
      cases written_eq
      rw [memberOf, resolveShape_unnamed unnamed] at made
      cases made
    · exact ih rest_eq other later other_stored written written_eq unnamed
  | case3 before field rest shape stored shape_eq error failed unsupported ih =>
    intro other listed other_stored written written_eq unnamed
    rcases List.mem_cons.mp listed with rfl | later
    · rw [shape_eq] at written_eq
      cases written_eq
      rw [memberOf, resolveShape_unnamed unnamed] at failed
      cases failed
      obtain ⟨⟨recorded, after_eq, _⟩, _⟩ := collectMembers_fields collected
      simp [after_eq, Registry.record]
    · exact ih collected other later other_stored written written_eq unnamed
  | case4 before field rest shape stored shape_eq error failed supported => cases collected
  | case5 before field rest skipped ih =>
    intro other listed other_stored written written_eq unnamed
    rcases List.mem_cons.mp listed with rfl | later
    · exact absurd other_stored (skipped written written_eq)
    · exact ih collected other later other_stored written written_eq unnamed

/-! ## Runs -/

/-- A run that changes no type and takes no error back, after which every object was there before
or shows one of some records, and every endpoint was there before or is read from one of them. -/
structure Exhibits (rules : Rules) (records : List Occurrence) (before after : Registry) :
    Prop where
  types : SameTypes before after
  errors : before.errors <+: after.errors
  objects : ∀ object ∈ after.objects,
    object ∈ before.objects ∨ ∃ record ∈ records, Shows rules after record object
  endpoints : ∀ endpoint ∈ after.endpoints,
    endpoint ∈ before.endpoints ∨ ∃ record ∈ records, ReadFrom rules record endpoint

section Exhibits
variable {rules : Rules} {records : List Occurrence} {first second third : Registry}

theorem Exhibits.refl (registry : Registry) : Exhibits rules records registry registry :=
  ⟨.refl registry, List.prefix_rfl, fun _ => .inl, fun _ => .inl⟩

theorem Exhibits.trans (one : Exhibits rules records first second)
    (two : Exhibits rules records second third) : Exhibits rules records first third := by
  refine ⟨one.types.trans two.types, one.errors.trans two.errors, ?_, ?_⟩
  · intro object listed
    rcases two.objects object listed with earlier | new
    · rcases one.objects object earlier with old | ⟨record, known, shown⟩
      · exact .inl old
      · exact .inr ⟨record, known, shown.mono two.types two.errors⟩
    · exact .inr new
  · intro endpoint listed
    rcases two.endpoints endpoint listed with earlier | new
    · exact one.endpoints endpoint earlier
    · exact .inr new

theorem Exhibits.widen {more : List Occurrence} (wider : records ⊆ more)
    (shown : Exhibits rules records first second) : Exhibits rules more first second := by
  refine ⟨shown.types, shown.errors, ?_, ?_⟩
  · intro object listed
    rcases shown.objects object listed with old | ⟨record, known, shows⟩
    · exact .inl old
    · exact .inr ⟨record, wider known, shows⟩
  · intro endpoint listed
    rcases shown.endpoints endpoint listed with old | ⟨record, known, read⟩
    · exact .inl old
    · exact .inr ⟨record, wider known, read⟩

/-- A run that only records errors. -/
theorem Exhibits.recorded (registry : Registry) (errors : List SchemaError) :
    Exhibits rules records registry { registry with errors := registry.errors ++ errors } :=
  ⟨⟨rfl, rfl, rfl⟩, List.prefix_append _ _, fun _ => .inl, fun _ => .inl⟩

theorem Exhibits.bind {run : Except Stopped Registry} {next : Registry → Except Stopped Registry}
    (shown : Exhibits rules records first (registryLeft run))
    (rest : ∀ registry, Exhibits rules records registry (registryLeft (next registry))) :
    Exhibits rules records first (registryLeft (run >>= next)) := by
  cases run with
  | error stopped => exact shown
  | ok registry => exact shown.trans (rest registry)

theorem Exhibits.tolerate {strict : Bool} {run : Except Stopped Registry}
    (shown : Exhibits rules records first (registryLeft run)) :
    Exhibits rules records first (registryLeft (tolerate strict run)) := by
  cases run with
  | ok registry => exact shown
  | error stopped =>
    cases strict with
    | true => exact shown
    | false => exact shown.trans (.recorded stopped.registry [stopped.error])

theorem Shows.registered {record : Occurrence} {object : SchemaObject}
    (shown : Shows rules first record object) (listed : record ∈ records) :
    Exhibits rules records first (first.registerObject object) := by
  have grown := Registry.registerObject_growth first object
  refine ⟨grown.toSameTypes, grown.errors, ?_, fun _ kept => .inl (grown.endpoints ▸ kept)⟩
  intro other kept
  have old_or_new : other ∈ first.objects ∨ other = object := by
    unfold Registry.registerObject at kept
    split at kept
    · exact .inl kept
    · simpa using kept
  rcases old_or_new with old | rfl
  · exact .inl old
  · exact .inr ⟨record, listed, shown.mono grown.toSameTypes grown.errors⟩

theorem ReadFrom.registered {record : Occurrence} {endpoint : Endpoint}
    (read : ReadFrom rules record endpoint) (listed : record ∈ records) :
    Exhibits rules records first (first.registerEndpoint endpoint) := by
  unfold Registry.registerEndpoint
  split
  · exact .recorded first _
  · refine ⟨⟨rfl, rfl, rfl⟩, List.prefix_rfl, fun _ => .inl, ?_⟩
    intro other kept
    rcases List.mem_append.mp kept with old | new
    · exact .inl old
    · exact .inr ⟨record, listed, List.mem_singleton.mp new ▸ read⟩

theorem finishObject_exhibits (record : Occurrence) (listed : record ∈ records)
    (isObject : record.heading.isObject = true) (before : Registry) :
    Exhibits rules records before
      (registryLeft (finishObject rules record.name record.heading record.children before)) := by
  unfold finishObject
  cases collected : collectMembers rules record.name before
      (Declaration.fieldHeadings record.children) with
  | error stopped =>
    obtain ⟨recorded, left⟩ := collectMembers_stopped collected
    change Exhibits rules records before stopped.registry
    rw [left]
    exact .recorded before recorded
  | ok result =>
    obtain ⟨middle, members⟩ := result
    obtain ⟨⟨recorded, middle_eq, _⟩, matched⟩ := collectMembers_fields collected
    have collecting : Exhibits rules records before middle := by
      rw [middle_eq]
      exact .recorded before recorded
    let object : SchemaObject := ⟨record.name, record.heading.comment,
      if record.heading.isNominal then typeMember record.name :: members else members⟩
    have shown : Shows rules middle record object := by
      refine ⟨isObject, rfl, rfl, ⟨members, rfl, matched.imp ?_⟩, collectMembers_leftOut collected⟩
      rintro field member ⟨shape, shape_eq, made⟩
      exact (memberOf_shows shape_eq made).mono collecting.types
    exact collecting.trans (shown.registered listed)

end Exhibits

section Walks
variable {rules : Rules} {strict : Bool}

theorem own_occurrence (around : List Heading) {heading : Heading}
    (children rest : List Declaration) (type : heading.isType = true) :
    ⟨around, heading, children⟩ ∈ allOccurrences around (.node heading children :: rest) :=
  mem_allOccurrences_cons.mpr (.inl ⟨type, .inl rfl⟩)

theorem nested_occurrences (around : List Heading) {heading : Heading}
    (children rest : List Declaration) (type : heading.isType = true) :
    allOccurrences (around ++ [heading]) children ⊆
      allOccurrences around (.node heading children :: rest) :=
  fun _ below => mem_allOccurrences_cons.mpr (.inl ⟨type, .inr below⟩)

theorem later_occurrences (around : List Heading) (declaration : Declaration)
    (rest : List Declaration) :
    allOccurrences around rest ⊆ allOccurrences around (declaration :: rest) :=
  fun _ later => List.mem_append_right _ later

theorem walkAllObjects_exhibits (declarations : List Declaration) (around : List Heading)
    (before : Registry) :
    Exhibits rules (allOccurrences around declarations) before
      (registryLeft (walkAllObjects rules strict (scopeOf around) before declarations)) := by
  induction declarations using Declaration.forest_induction generalizing around before with
  | nil => exact .refl before
  | cons heading children rest inner last =>
    rw [walkAllObjects, walkObjects]
    refine Exhibits.bind ?_ fun registry => (last around registry).widen (later_occurrences ..)
    split
    · exact .refl before
    · rename_i entered
      have type : heading.isType = true := by
        cases type : heading.isType <;> simp_all
      have below : ∀ registry, Exhibits rules
          (allOccurrences around (.node heading children :: rest)) registry
          (registryLeft (walkAllObjects rules strict
            (some (qualifiedName (scopeOf around) heading.name)) registry children)) := by
        intro registry
        rw [← scopeOf_append]
        exact (inner _ registry).widen (nested_occurrences around children rest type)
      dsimp only
      split
      · rename_i isObject
        refine Exhibits.tolerate ((below before).bind fun registry => ?_)
        exact finishObject_exhibits ⟨around, heading, children⟩
          (own_occurrence around children rest type) isObject registry
      · exact below before

theorem extractPayloads_exhibits (children : List Declaration) {around : List Heading}
    {name : String} (scope : scopeOf around = some name) (before : Registry) :
    Exhibits rules (allOccurrences around children) before
      (registryLeft (extractPayloads rules strict name before children)) := by
  induction children generalizing before with
  | nil => exact .refl before
  | cons child rest ih =>
    obtain ⟨heading, nested⟩ := child
    rw [extractPayloads_cons, ← scope]
    refine Exhibits.bind ?_ fun registry => (ih registry).widen (later_occurrences ..)
    split
    · rename_i isObject
      have isObject : heading.isObject = true := isObject
      have type := Heading.isType_of_isObject isObject
      refine Exhibits.bind ?_ fun registry => finishObject_exhibits ⟨around, heading, nested⟩
          (own_occurrence around nested rest type) isObject registry
      rw [← scopeOf_append]
      exact (walkAllObjects_exhibits nested _ before).widen
        (nested_occurrences around nested rest type)
    · rw [walkObjects_eq_walkAllObjects]
      refine (walkAllObjects_exhibits [.node heading nested] around before).widen ?_
      intro record listed
      rw [allOccurrences, allOccurrences, List.append_nil] at listed
      exact List.mem_append_left _ listed

theorem extractEndpoint_exhibits (heading : Heading) (children rest : List Declaration)
    (around : List Heading) (type : heading.isType = true) (before : Registry) :
    Exhibits rules (allOccurrences around (.node heading children :: rest)) before
      (registryLeft (extractEndpoint rules strict (scopeOf around) before
        (.node heading children))) := by
  unfold extractEndpoint
  apply Exhibits.tolerate
  cases parsed : parseEndpoint rules strict (scopeOf around) before (.node heading children) with
  | error stopped =>
    -- What the endpoint had registered is dropped again, so no object of before is replaced.
    obtain ⟨recorded, left⟩ := parseEndpoint_error_registry parsed
    change Exhibits rules _ before stopped.registry
    rw [left]
    exact .recorded before recorded
  | ok result =>
    obtain ⟨filled, endpoint⟩ := result
    obtain ⟨read, extracted⟩ := extractPayloads_of_parseEndpoint parsed
    have payloads : Exhibits rules _ before
        (registryLeft (extractPayloads rules strict _ before children)) :=
      extractPayloads_exhibits children (scopeOf_append around heading) before
    rw [extracted] at payloads
    have own : ReadFrom rules ⟨around, heading, children⟩ endpoint := read
    exact (payloads.widen (nested_occurrences around children rest type)).trans
      (own.registered (own_occurrence around children rest type))

theorem walkAllEndpoints_exhibits (declarations : List Declaration) (around : List Heading)
    (before : Registry) :
    Exhibits rules (allOccurrences around declarations) before
      (registryLeft (walkAllEndpoints rules strict (scopeOf around) before declarations)) := by
  induction declarations using Declaration.forest_induction generalizing around before with
  | nil => exact .refl before
  | cons heading children rest inner last =>
    rw [walkAllEndpoints, walkEndpoints]
    refine Exhibits.bind ?_ fun registry => (last around registry).widen (later_occurrences ..)
    split
    · exact .refl before
    · rename_i entered
      have type : heading.isType = true := by simpa using entered
      split
      · exact extractEndpoint_exhibits heading children rest around type before
      · rw [← scopeOf_append]
        exact (inner _ before).widen (nested_occurrences around children rest type)

end Walks

/-! ## The whole extraction -/

/-- Before the pass over objects nothing is registered but wrappers. -/
theorem extract_exhibits (rules : Rules) (strict : Bool) (source : List Declaration) :
    ∃ wrapped, wrapped.objects = [] ∧ wrapped.endpoints = [] ∧
      Exhibits rules (allOccurrences [] source) wrapped (extract rules strict source).registry := by
  rw [(extract_eq_runAll rules strict source).1, runAll]
  have kept : ∀ registry next, OneOfStep rules strict registry next →
      registry.objects = [] ∧ registry.endpoints = [] →
      next.objects = [] ∧ next.endpoints = [] := by
    intro registry next step same
    cases step with
    | leftOut error _ => exact same
    | tolerated error _ => exact same
    | ordinary name => exact same
    | registered wrapper _ =>
      unfold Registry.registerWrapper
      split <;> exact same
  obtain ⟨symbols, scopes, fresh⟩ := collectAllSymbols_frame source none {}
  obtain ⟨objects, endpoints⟩ := steps_keep kept
    (walkAllOneOfs_run rules strict source none (collectAllSymbols none {} source)).steps
    (by rw [fresh]; exact ⟨rfl, rfl⟩)
  generalize walkAllOneOfs rules strict none (collectAllSymbols none {} source) source = run
    at objects endpoints
  cases run with
  | error stopped => exact ⟨stopped.registry, objects, endpoints, .refl stopped.registry⟩
  | ok wrapped =>
    exact ⟨wrapped, objects, endpoints,
      (walkAllObjects_exhibits source [] wrapped).bind (walkAllEndpoints_exhibits source [])⟩

end ApiHandbook.Extraction
