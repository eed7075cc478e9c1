import Mathlib.Data.List.Forall2
import ApiHandbook.Proofs.Extraction.Passes
import ApiHandbook.Proofs.Registry.Tables
import ApiHandbook.Proofs.Source.Occurrences

/-!
# What a strict run registers

A strict walk that finishes has gone through certain records in a certain order and entered one
object or endpoint for each of them. The order is that of the nesting: objects below a record
before it, objects outside of endpoints before those inside.
-/
namespace ApiHandbook.Source

/-- A written type that is a name, alone or as an optional or an array. -/
def TypeShape.isNamed (shape : TypeShape) : Bool := shape.kind ≠ .unsupported && shape.name.isSome

/-- A stored field whose type is a name: the others are left out of the documentation. -/
def Heading.isDocumented (field : Heading) : Bool :=
  field.isStoredField && field.shape.any (·.isNamed)

end ApiHandbook.Source

namespace ApiHandbook.Extraction
open Schema Source
open Registry (SameTypes)

mutual

/-- The object records at and below a declaration that the walk over objects extracts, nested
ones first. It passes over endpoints. -/
def walkedObjects (around : List Heading) : Declaration → List Occurrence
  | .node heading children =>
    if heading.isType && !heading.isEndpoint then
      allWalkedObjects (around ++ [heading]) children ++
        if heading.isObject then [⟨around, heading, children⟩] else []
    else []

def allWalkedObjects (around : List Heading) : List Declaration → List Occurrence
  | [] => []
  | declaration :: rest => walkedObjects around declaration ++ allWalkedObjects around rest

end

/-- The object records that are extracted with an endpoint that has these children. -/
def payloadObjects (around : List Heading) : List Declaration → List Occurrence
  | [] => []
  | .node heading children :: rest =>
    (if heading.isObject then
      allWalkedObjects (around ++ [heading]) children ++ [⟨around, heading, children⟩]
    else walkedObjects around (.node heading children)) ++ payloadObjects around rest

mutual

/-- The object records that are extracted with the endpoints at and below a declaration. -/
def endpointObjects (around : List Heading) : Declaration → List Occurrence
  | .node heading children =>
    if heading.isEndpoint then payloadObjects (around ++ [heading]) children
    else if heading.isType then allEndpointObjects (around ++ [heading]) children
    else []

def allEndpointObjects (around : List Heading) : List Declaration → List Occurrence
  | [] => []
  | declaration :: rest => endpointObjects around declaration ++ allEndpointObjects around rest

end

/-- The endpoints that lie in no other endpoint, in source order. -/
def outermostEndpoints (around : List Heading) (declarations : List Declaration) :
    List Occurrence :=
  (allOccurrences around declarations).filter fun type => type.heading.isEndpoint && !type.isEnclosed

/-! ## Objects and endpoints of single records -/

/-- An object with one member for each documented field of a record, in order, typed as the names
stand in a registry. -/
structure BuiltFrom (rules : Rules) (types : Registry) (record : Occurrence)
    (object : SchemaObject) : Prop where
  name : object.name = record.name
  members : ∃ members,
    object.members =
      (if record.heading.isNominal then typeMember record.name :: members else members) ∧
    List.Forall₂
      (fun field member => ∃ shape, field.shape = some shape ∧
        memberOf rules types record.name field shape = .ok member)
      ((Declaration.fieldHeadings record.children).filter (·.isDocumented)) members

def ReadFrom (rules : Rules) (record : Occurrence) (endpoint : Endpoint) : Prop :=
  readEndpoint rules record.name record.children = .ok endpoint

theorem readEndpoint_name {rules : Rules} {name : String} {children : List Declaration}
    {endpoint : Endpoint} (read : readEndpoint rules name children = .ok endpoint) :
    endpoint.name = name := by
  obtain ⟨method, _, read⟩ := ok_of_bind read
  obtain ⟨path, _, read⟩ := ok_of_bind read
  split at read
  · cases read
  · cases read
    rfl

theorem memberOf_eq {before after : Registry} (same : SameTypes before after) (rules : Rules)
    (object : String) (field : Heading) (shape : TypeShape) :
    memberOf rules after object field shape = memberOf rules before object field shape := by
  simp only [memberOf, same.resolveShape_eq]

theorem BuiltFrom.mono {rules : Rules} {before after : Registry} {record : Occurrence}
    {object : SchemaObject} (same : SameTypes before after)
    (built : BuiltFrom rules before record object) : BuiltFrom rules after record object := by
  obtain ⟨members, members_eq, fields⟩ := built.members
  refine ⟨built.name, members, members_eq, fields.imp ?_⟩
  rintro field member ⟨shape, shape_eq, made⟩
  exact ⟨shape, shape_eq, (memberOf_eq same ..).trans made⟩

theorem resolveShape_isNamed {registry : Registry} {rules : Rules} {shape : TypeShape}
    {scope : Option String} {declaration : String} {field : Option String}
    {typed : ValueType × Bool}
    (resolved : registry.resolveShape rules shape scope declaration field = .ok typed) :
    shape.isNamed = true := by
  obtain ⟨kind, name, text⟩ := shape
  cases name with
  | none => cases kind <;> cases resolved
  | some name => cases kind <;> first | rfl | cases resolved

theorem resolveShape_not_isNamed {registry : Registry} {rules : Rules} {shape : TypeShape}
    {scope : Option String} {declaration : String} {field : Option String} {error : SchemaError}
    (failed : registry.resolveShape rules shape scope declaration field = .error error)
    (unsupported : error.isUnsupported = true) : shape.isNamed = false := by
  unfold Registry.resolveShape at failed
  split at failed
  · rename_i kind_eq
    simp [TypeShape.isNamed, kind_eq]
  · rename_i name_eq _
    simp [TypeShape.isNamed, name_eq]
  · rcases error_of_bind failed with unresolved | ⟨type, _, made⟩
    · unfold Registry.resolve at unresolved
      dsimp only at unresolved
      split at unresolved <;> cases unresolved
      cases unsupported
    · cases made

/-- Collecting members records unsupported shapes and changes nothing else; there is one member
for each documented field. -/
theorem collectMembers_fields {rules : Rules} {object : String} {fields : List Heading}
    {before after : Registry} {members : List Member}
    (collected : collectMembers rules object before fields = .ok (after, members)) :
    (∃ recorded, after = { before with errors := before.errors ++ recorded } ∧
      ∀ error ∈ recorded, error.isUnsupported = true) ∧
    List.Forall₂
      (fun field member => ∃ shape, field.shape = some shape ∧
        memberOf rules before object field shape = .ok member)
      (fields.filter (·.isDocumented)) members := by
  fun_induction collectMembers rules object before fields generalizing members with
  | case1 before =>
    cases collected
    exact ⟨⟨[], by simp, by simp⟩, .nil⟩
  | case2 before field rest shape stored shape_eq member made ih =>
    obtain ⟨⟨registry, others⟩, rest_eq, collected⟩ := ok_of_bind collected
    cases collected
    obtain ⟨frame, matched⟩ := ih rest_eq
    obtain ⟨typed, resolved, _⟩ := ok_of_bind made
    have documented : field.isDocumented = true := by
      simp [Heading.isDocumented, stored, shape_eq, resolveShape_isNamed resolved]
    rw [List.filter_cons_of_pos documented]
    exact ⟨frame, .cons ⟨shape, shape_eq, made⟩ matched⟩
  | case3 before field rest shape stored shape_eq error failed unsupported ih =>
    obtain ⟨⟨recorded, after_eq, all_unsupported⟩, matched⟩ := ih collected
    have undocumented : ¬ field.isDocumented = true := by
      rcases error_of_bind failed with failed | ⟨typed, _, made⟩
      · simp [Heading.isDocumented, shape_eq, resolveShape_not_isNamed failed unsupported]
      · cases made
    refine ⟨⟨error :: recorded, ?_, ?_⟩, ?_⟩
    · rw [after_eq]
      simp [Registry.record]
    · intro found listed
      rcases List.mem_cons.mp listed with rfl | later
      · exact unsupported
      · exact all_unsupported found later
    · rw [List.filter_cons_of_neg undocumented]
      refine matched.imp ?_
      rintro other member ⟨shape, shape_eq, made⟩
      exact ⟨shape, shape_eq, (memberOf_eq (Registry.record_growth before error).toSameTypes ..) ▸ made⟩
  | case4 before field rest shape stored shape_eq error failed supported => cases collected
  | case5 before field rest skipped ih =>
    have undocumented : ¬ field.isDocumented = true := by
      intro documented
      simp only [Heading.isDocumented, Bool.and_eq_true, Option.any_eq_true] at documented
      obtain ⟨stored, shape, shape_eq, _⟩ := documented
      exact skipped shape shape_eq stored
    rw [List.filter_cons_of_neg undocumented]
    exact ih collected

/-! ## Runs -/

/-- A run that has entered one object for each of some records and one endpoint for each of some
others, in these orders, and has changed no type. -/
structure Registers (rules : Rules) (objects endpoints : List Occurrence)
    (before after : Registry) : Prop where
  types : SameTypes before after
  objects : ∃ made, List.Forall₂ (BuiltFrom rules before) objects made ∧
    after.objectTable = made.foldl (Table.enter SchemaObject.name) before.objectTable
  endpoints : ∃ made, List.Forall₂ (ReadFrom rules) endpoints made ∧
    after.endpointTable = made.foldl (Table.enter Endpoint.name) before.endpointTable

theorem Registers.nothing (rules : Rules) (registry : Registry) :
    Registers rules [] [] registry registry :=
  ⟨.refl registry, ⟨[], .nil, rfl⟩, ⟨[], .nil, rfl⟩⟩

theorem Registers.trans {rules : Rules} {objects moreObjects endpoints moreEndpoints : List Occurrence}
    {first second third : Registry} (one : Registers rules objects endpoints first second)
    (two : Registers rules moreObjects moreEndpoints second third) :
    Registers rules (objects ++ moreObjects) (endpoints ++ moreEndpoints) first third := by
  obtain ⟨made, built, table⟩ := one.objects
  obtain ⟨more, moreBuilt, moreTable⟩ := two.objects
  obtain ⟨read, readFrom, readTable⟩ := one.endpoints
  obtain ⟨moreRead, moreReadFrom, moreReadTable⟩ := two.endpoints
  refine ⟨one.types.trans two.types, ⟨made ++ more, ?_, ?_⟩, ⟨read ++ moreRead, ?_, ?_⟩⟩
  · exact List.rel_append built (moreBuilt.imp fun _ _ => BuiltFrom.mono one.types.symm)
  · rw [List.foldl_append, ← table, moreTable]
  · exact List.rel_append readFrom moreReadFrom
  · rw [List.foldl_append, ← readTable, moreReadTable]

/-- Walks that come to no endpoint of their own. -/
theorem Registers.transObjects {rules : Rules} {objects moreObjects : List Occurrence}
    {first second third : Registry} (one : Registers rules objects [] first second)
    (two : Registers rules moreObjects [] second third) :
    Registers rules (objects ++ moreObjects) [] first third :=
  one.trans two

theorem finishObject_registers {rules : Rules} (record : Occurrence) {before after : Registry}
    (finished : finishObject rules record.name record.heading record.children before = .ok after) :
    Registers rules [record] [] before after := by
  obtain ⟨⟨middle, members⟩, collected, made⟩ := ok_of_bind finished
  cases made
  obtain ⟨⟨recorded, middle_eq, unsupported⟩, matched⟩ := collectMembers_fields collected
  obtain ⟨objects, endpoints⟩ := Registry.tables_of_unsupported middle_eq unsupported
  have same : SameTypes before middle := by
    rw [middle_eq]
    exact ⟨rfl, rfl, rfl⟩
  let object : SchemaObject := ⟨record.name, record.heading.comment,
    if record.heading.isNominal then typeMember record.name :: members else members⟩
  have built : BuiltFrom rules before record object := ⟨rfl, members, rfl, matched⟩
  refine ⟨?_, ⟨[object], .cons built .nil, ?_⟩, ⟨[], .nil, ?_⟩⟩
  · exact same.trans (Registry.registerObject_growth middle object).toSameTypes
  · exact (Registry.registerObject_objectTable middle object).trans (by rw [objects]; rfl)
  · exact (Registry.registerObject_endpointTable middle object).trans endpoints

theorem walkAllObjects_registers {rules : Rules} {declarations : List Declaration}
    (around : List Heading) {before after : Registry}
    (walked : walkAllObjects rules true (scopeOf around) before declarations = .ok after) :
    Registers rules (allWalkedObjects around declarations) [] before after := by
  induction declarations using Declaration.forest_induction
    generalizing around before after with
  | nil =>
    cases walked
    exact .nothing rules before
  | cons heading children rest inner last =>
    rw [walkAllObjects, walkObjects] at walked
    obtain ⟨middle, first, walked⟩ := ok_of_bind walked
    rw [allWalkedObjects, walkedObjects]
    refine Registers.transObjects ?_ (last around walked)
    split at first
    · rename_i passed
      cases first
      have skipped : ¬ (heading.isType && !heading.isEndpoint) = true := by
        cases type : heading.isType <;> simp_all
      rw [if_neg skipped]
      exact .nothing rules before
    · rename_i entered
      have walkedInto : (heading.isType && !heading.isEndpoint) = true := by
        cases type : heading.isType <;> simp_all
      rw [if_pos walkedInto]
      dsimp only at first
      rw [← scopeOf_append] at first
      split at first
      · rename_i object
        obtain ⟨filled, below, finished⟩ := ok_of_bind (tolerate_strict first)
        rw [if_pos object]
        exact (inner _ below).transObjects (finishObject_registers ⟨around, heading, children⟩ finished)
      · rename_i plain
        rw [if_neg plain, List.append_nil]
        exact inner _ first

theorem extractPayloads_registersAll {rules : Rules} {children : List Declaration}
    {around : List Heading} {name : String} {before after : Registry}
    (scope : scopeOf around = some name)
    (extracted : extractPayloads rules true name before children = .ok after) :
    Registers rules (payloadObjects around children) [] before after := by
  induction children generalizing before with
  | nil =>
    cases extracted
    exact .nothing rules after
  | cons child rest ih =>
    rw [extractPayloads_cons] at extracted
    obtain ⟨middle, first, rest_eq⟩ := ok_of_bind extracted
    obtain ⟨heading, children⟩ := child
    rw [payloadObjects]
    refine Registers.transObjects ?_ (ih rest_eq)
    rw [← scope] at first
    split at first
    · rename_i object
      have object : heading.isObject = true := object
      obtain ⟨filled, below, finished⟩ := ok_of_bind first
      rw [← scopeOf_append] at below
      rw [if_pos object]
      exact (walkAllObjects_registers _ below).transObjects
        (finishObject_registers ⟨around, heading, children⟩ finished)
    · rename_i plain
      have plain : ¬ heading.isObject = true := plain
      rw [walkObjects_eq_walkAllObjects] at first
      have walked := walkAllObjects_registers around first
      rw [allWalkedObjects, allWalkedObjects, List.append_nil] at walked
      rw [if_neg plain]
      exact walked

theorem registerEndpoint_registers {rules : Rules} (record : Occurrence) {endpoint : Endpoint}
    (registry : Registry) (read : ReadFrom rules record endpoint) :
    Registers rules [] [record] registry (registry.registerEndpoint endpoint) := by
  refine ⟨?_, ⟨[], .nil, ?_⟩, ⟨[endpoint], .cons read .nil, ?_⟩⟩
  · unfold Registry.registerEndpoint
    split <;> exact ⟨rfl, rfl, rfl⟩
  · rw [Registry.registerEndpoint_objectTable]
    rfl
  · rw [Registry.registerEndpoint_endpointTable]
    rfl

theorem extractEndpoint_registers {rules : Rules} {around : List Heading} {heading : Heading}
    {children : List Declaration} {before after : Registry}
    (extracted : extractEndpoint rules true (scopeOf around) before (.node heading children) =
      .ok after) :
    Registers rules (payloadObjects (around ++ [heading]) children) [⟨around, heading, children⟩]
      before after := by
  obtain ⟨⟨filled, endpoint⟩, parsed, registered⟩ := ok_of_bind (tolerate_strict extracted)
  cases registered
  obtain ⟨read, payloads⟩ := extractPayloads_of_parseEndpoint parsed
  have objects := extractPayloads_registersAll (scopeOf_append around heading) payloads
  have own := registerEndpoint_registers ⟨around, heading, children⟩ filled read
  simpa using objects.trans own

/-! ## The pass over endpoints -/

theorem isType_of_isEndpoint {heading : Heading} (endpoint : heading.isEndpoint = true) :
    heading.isType = true := by
  simp only [Heading.isEndpoint, Heading.isType, Bool.and_eq_true, Bool.or_eq_true] at endpoint ⊢
  exact .inl endpoint.1

/-- Inside an endpoint there is no outermost one. -/
theorem outermostEndpoints_enclosed {around : List Heading}
    (enclosed : around.any (·.isEndpoint) = true) (declarations : List Declaration) :
    outermostEndpoints around declarations = [] := by
  rw [outermostEndpoints, List.filter_eq_nil_iff]
  intro type listed
  obtain ⟨more, around_eq⟩ := around_of_mem_allOccurrences listed
  simp [Occurrence.isEnclosed, ← around_eq, enclosed]

theorem outermostEndpoints_cons {around : List Heading} (outside : around.any (·.isEndpoint) = false)
    (heading : Heading) (children rest : List Declaration) :
    outermostEndpoints around (.node heading children :: rest) =
      (if heading.isEndpoint then [⟨around, heading, children⟩]
      else if heading.isType then outermostEndpoints (around ++ [heading]) children
      else []) ++ outermostEndpoints around rest := by
  rw [outermostEndpoints, allOccurrences_cons, List.filter_append]
  congr 1
  cases endpoint : heading.isEndpoint with
  | true =>
    have enclosed : (around ++ [heading]).any (·.isEndpoint) = true := by simp [endpoint]
    have none_below := outermostEndpoints_enclosed enclosed children
    rw [outermostEndpoints] at none_below
    rw [if_pos (isType_of_isEndpoint endpoint), List.filter_cons, none_below]
    simp [endpoint, Occurrence.isEnclosed, outside]
  | false =>
    cases heading.isType with
    | false => rfl
    | true =>
      simp only [if_true, Bool.false_eq_true, if_false]
      rw [List.filter_cons_of_neg (by simp [endpoint])]
      rfl

theorem walkAllEndpoints_registers {rules : Rules} {declarations : List Declaration}
    (around : List Heading) {before after : Registry}
    (outside : around.any (·.isEndpoint) = false)
    (walked : walkAllEndpoints rules true (scopeOf around) before declarations = .ok after) :
    Registers rules (allEndpointObjects around declarations) (outermostEndpoints around declarations)
      before after := by
  induction declarations using Declaration.forest_induction
    generalizing around before after with
  | nil =>
    cases walked
    exact .nothing rules before
  | cons heading children rest inner last =>
    rw [walkAllEndpoints, walkEndpoints] at walked
    obtain ⟨middle, first, walked⟩ := ok_of_bind walked
    rw [allEndpointObjects, endpointObjects, outermostEndpoints_cons outside]
    refine Registers.trans ?_ (last around outside walked)
    cases endpoint : heading.isEndpoint with
    | true =>
      rw [isType_of_isEndpoint endpoint, endpoint] at first
      exact extractEndpoint_registers first
    | false =>
      rw [endpoint] at first
      cases type : heading.isType with
      | false =>
        rw [type] at first
        cases first
        exact .nothing rules before
      | true =>
        rw [type, ← scopeOf_append] at first
        exact inner _ (by simp [outside, endpoint]) first

/-! ## All passes -/

/-- Before the pass over objects there are none, and no duplicate but those of wrappers. -/
theorem walkAllOneOfs_fresh {rules : Rules} {source : List Declaration} {wrapped : Registry}
    (walked : walkAllOneOfs rules true none (collectAllSymbols none {} source) source =
      .ok wrapped) :
    wrapped.objectTable = ⟨[], []⟩ ∧ wrapped.endpointTable = ⟨[], []⟩ := by
  have kept : ∀ registry next, OneOfStep rules true registry next →
      registry.objectTable = ⟨[], []⟩ ∧ registry.endpointTable = ⟨[], []⟩ →
      next.objectTable = ⟨[], []⟩ ∧ next.endpointTable = ⟨[], []⟩ := by
    rintro registry next step ⟨objects, endpoints⟩
    have recorded : ∀ error : SchemaError, error.duplicateOf? "object" = none →
        error.duplicateOf? "endpoint" = none →
        (registry.record error).objectTable = ⟨[], []⟩ ∧
          (registry.record error).endpointTable = ⟨[], []⟩ := by
      intro error noObject noEndpoint
      simp only [Registry.objectTable, Registry.endpointTable, Registry.duplicates_record, noObject,
        noEndpoint, Option.toList_none, List.append_nil]
      exact ⟨objects, endpoints⟩
    cases step with
    | leftOut error unsupported =>
      exact recorded error (SchemaError.duplicateOf?_of_isUnsupported _ unsupported)
        (SchemaError.duplicateOf?_of_isUnsupported _ unsupported)
    | tolerated error lenient => cases lenient
    | ordinary name => exact ⟨objects, endpoints⟩
    | registered wrapper _ =>
      unfold Registry.registerWrapper
      split
      · exact recorded _ rfl rfl
      · exact ⟨objects, endpoints⟩
  obtain ⟨symbols, scopes, fresh⟩ := collectAllSymbols_frame source none {}
  refine steps_keep kept ((walkAllOneOfs_run ..).finished walked) ?_
  rw [fresh]
  exact ⟨rfl, rfl⟩

/-- A strict run that returns has registered the records of both walks, from tables that were
empty. -/
theorem extract_registers {rules : Rules} {source : List Declaration}
    (success : (extract rules true source).raised = none) :
    ∃ wrapped,
      walkAllOneOfs rules true none (collectAllSymbols none {} source) source = .ok wrapped ∧
      wrapped.objectTable = ⟨[], []⟩ ∧ wrapped.endpointTable = ⟨[], []⟩ ∧
      Registers rules (allWalkedObjects [] source ++ allEndpointObjects [] source)
        (outermostEndpoints [] source) wrapped (extract rules true source).registry := by
  rw [(extract_eq_runAll rules true source).2] at success
  rw [(extract_eq_runAll rules true source).1]
  cases finished : runAll rules true source with
  | error stopped =>
    rw [finished] at success
    cases success
  | ok registry =>
    obtain ⟨wrapped, oneOfs, finished⟩ := ok_of_bind finished
    obtain ⟨filled, objects, endpoints⟩ := ok_of_bind finished
    obtain ⟨noObjects, noEndpoints⟩ := walkAllOneOfs_fresh oneOfs
    have outer := walkAllObjects_registers [] objects
    have inner := walkAllEndpoints_registers [] rfl endpoints
    exact ⟨wrapped, oneOfs, noObjects, noEndpoints, outer.trans inner⟩

/-- The entries of a table in the order of the records they are made from. -/
theorem names_of_forall₂ {α : Type} {nameOf : α → String} {made : Occurrence → α → Prop}
    (named : ∀ record entry, made record entry → nameOf entry = record.name)
    {records : List Occurrence} {entries : List α} (all : List.Forall₂ made records entries) :
    entries.map nameOf = records.map (·.name) := by
  induction all with
  | nil => rfl
  | cons first _ ih => rw [List.map_cons, List.map_cons, named _ _ first, ih]

/-- The first entry of a name is made from the first record of that name. -/
theorem find?_of_forall₂ {α : Type} {nameOf : α → String} {made : Occurrence → α → Prop}
    (named : ∀ record entry, made record entry → nameOf entry = record.name)
    {records : List Occurrence} {entries : List α} (all : List.Forall₂ made records entries)
    {name : String} {entry : α} (found : entries.find? (nameOf · == name) = some entry) :
    ∃ record, records.find? (·.name == name) = some record ∧ made record entry := by
  induction all with
  | nil => cases found
  | @cons record first records entries here _ ih =>
    rw [List.find?_cons] at found ⊢
    rw [named _ _ here] at found
    cases same : record.name == name with
    | true =>
      rw [same] at found
      cases found
      exact ⟨record, rfl, here⟩
    | false =>
      rw [same] at found
      exact ih found

/-- A table of entries that are made from records one by one: its names are those of the records,
each at its first place, all others are repeated, and every entry is made from the first record of
its name. -/
theorem ofEntries_of_forall₂ {α : Type} {nameOf : α → String} {made : Occurrence → α → Prop}
    (named : ∀ record entry, made record entry → nameOf entry = record.name)
    {records : List Occurrence} {entries : List α} (all : List.Forall₂ made records entries) :
    (Table.ofEntries nameOf entries).entries.map nameOf = (records.map (·.name)).eraseDups ∧
    (Table.ofEntries nameOf entries).repeated = repeats (records.map (·.name)) ∧
    ∀ entry ∈ (Table.ofEntries nameOf entries).entries, ∃ record,
      records.find? (·.name == nameOf entry) = some record ∧ made record entry := by
  have names := names_of_forall₂ named all
  refine ⟨?_, ?_, ?_⟩
  · rw [Table.ofEntries_names, names]
  · rw [Table.ofEntries_repeated, names]
  · intro entry kept
    exact find?_of_forall₂ named all (Table.find?_of_mem_ofEntries nameOf kept)

end ApiHandbook.Extraction
