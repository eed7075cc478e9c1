import ApiHandbook.Proofs.Extraction.Passes

/-!
# Which records are extracted

Objects are registered by two walks. One passes over endpoints, the other looks for endpoints and
registers what is nested in them, but enters no endpoint inside an endpoint. An object record
behind such an endpoint, or one that is an endpoint itself, is known as a symbol and yet never
registered.
-/
namespace ApiHandbook.Source.Heading

theorem isType_of_isObject {heading : Heading} (object : heading.isObject = true) :
    heading.isType = true := by
  simp only [isObject, isType, Bool.and_eq_true, Bool.or_eq_true] at object ⊢
  exact .inl object.1

end ApiHandbook.Source.Heading

namespace ApiHandbook.Extraction
open Schema Source

/-- Where the walks meet a declaration: outside of endpoints with both walks in view, on the walk
over objects, on the walk over endpoints and outside of them, directly inside an endpoint, or
behind an endpoint that is not entered. -/
inductive Place where
  | outer | objects | endpoints | payload | behind
  deriving DecidableEq, Repr

/-- The place of what is nested in a type. -/
def Place.inside (place : Place) (heading : Heading) : Place :=
  match place with
  | .outer => if heading.isEndpoint then .payload else .outer
  | .objects => if heading.isEndpoint then .behind else .objects
  | .endpoints => if heading.isEndpoint then .payload else .endpoints
  | .payload => if heading.isEndpoint && !heading.isObject then .behind else .objects
  | .behind => .behind

/-- Whether a record is extracted at a place. -/
def Place.extracts (place : Place) (heading : Heading) : Bool :=
  match place with
  | .outer | .objects => heading.isObject && !heading.isEndpoint
  | .payload => heading.isObject
  | .endpoints | .behind => false

theorem Place.isObject_of_extracts {place : Place} {heading : Heading}
    (extracted : place.extracts heading = true) : heading.isObject = true := by
  cases place <;> simp_all [extracts]

mutual

/-- The object records at and below a declaration, nested ones first, and whether each is
extracted. -/
def objectRecords (place : Place) (scope : Option String) : Declaration → List (String × Bool)
  | .node heading children =>
    if heading.isType then
      let name := qualifiedName scope heading.name
      allObjectRecords (place.inside heading) (some name) children ++
        if heading.isObject then [(name, place.extracts heading)] else []
    else []

def allObjectRecords (place : Place) (scope : Option String) :
    List Declaration → List (String × Bool)
  | [] => []
  | declaration :: rest =>
    objectRecords place scope declaration ++ allObjectRecords place scope rest

end

/-- The names of the records that are extracted, in the order of extraction. -/
def extractedNames (place : Place) (scope : Option String) (declarations : List Declaration) :
    List String :=
  ((allObjectRecords place scope declarations).filter (·.2)).map (·.1)

theorem mem_extractedNames {place : Place} {scope : Option String}
    {declarations : List Declaration} {name : String} :
    name ∈ extractedNames place scope declarations ↔
      (name, true) ∈ allObjectRecords place scope declarations := by
  simp [extractedNames]

theorem extractedNames_nil (place : Place) (scope : Option String) :
    extractedNames place scope [] = [] := rfl

theorem extractedNames_cons (place : Place) (scope : Option String) (heading : Heading)
    (children rest : List Declaration) :
    extractedNames place scope (.node heading children :: rest) =
      (if heading.isType then
        extractedNames (place.inside heading) (some (qualifiedName scope heading.name)) children ++
          (if place.extracts heading then [qualifiedName scope heading.name] else [])
      else []) ++ extractedNames place scope rest := by
  have own : (if heading.isObject then
      [(qualifiedName scope heading.name, place.extracts heading)] else []).filter (·.2) =
      if place.extracts heading then [(qualifiedName scope heading.name, true)] else [] := by
    cases extracted : place.extracts heading with
    | true => rw [if_pos (Place.isObject_of_extracts extracted)]; rfl
    | false => cases heading.isObject <;> rfl
  unfold extractedNames
  rw [allObjectRecords, objectRecords, List.filter_append, List.map_append]
  congr 1
  split
  · rw [List.filter_append, List.map_append, own]
    congr 1
    split <;> rfl
  · rfl

theorem extractedNames_behind (declarations : List Declaration) (scope : Option String) :
    extractedNames .behind scope declarations = [] := by
  induction declarations using Declaration.forest_induction generalizing scope with
  | nil => rfl
  | cons heading children rest inner after =>
    rw [extractedNames_cons, after]
    simp [Place.inside, Place.extracts, inner]

/-- Outside of endpoints every extracted record is met by one of the walks. -/
theorem mem_extractedNames_outer (declarations : List Declaration) (scope : Option String)
    (name : String) :
    name ∈ extractedNames .outer scope declarations ↔
      name ∈ extractedNames .objects scope declarations ∨
        name ∈ extractedNames .endpoints scope declarations := by
  induction declarations using Declaration.forest_induction generalizing scope with
  | nil => simp [extractedNames_nil]
  | cons heading children rest inner after =>
    simp only [extractedNames_cons, List.mem_append, after]
    cases type : heading.isType with
    | false => simp
    | true =>
      cases endpoint : heading.isEndpoint with
      | true =>
        simp only [if_true, Place.inside, Place.extracts, endpoint, extractedNames_behind]
        simp only [Bool.not_true, Bool.and_false, Bool.false_eq_true, if_false, List.append_nil,
          List.not_mem_nil, false_or]
        tauto
      | false =>
        simp only [if_true, Place.inside, Place.extracts, endpoint, Bool.false_eq_true, if_false,
          List.mem_append, inner, List.not_mem_nil, or_false]
        tauto

/-! ## Names after a strict walk -/

/-- A name behind the others, if it is new. -/
def insertName (names : List String) (name : String) : List String :=
  if name ∈ names then names else names ++ [name]

theorem mem_foldl_insertName (added names : List String) (name : String) :
    name ∈ added.foldl insertName names ↔ name ∈ names ∨ name ∈ added := by
  induction added generalizing names with
  | nil => simp
  | cons first rest ih =>
    rw [List.foldl_cons, ih, insertName]
    split
    · rename_i known
      constructor
      · rintro (old | later)
        · exact .inl old
        · exact .inr (List.mem_cons_of_mem _ later)
      · rintro (old | later)
        · exact .inl old
        · rcases List.mem_cons.mp later with rfl | later
          · exact .inl known
          · exact .inr later
    · simp [or_assoc]

theorem registerObject_names (registry : Registry) (object : SchemaObject) :
    (registry.registerObject object).objects.map (·.name) =
      insertName (registry.objects.map (·.name)) object.name := by
  unfold Registry.registerObject insertName
  simp only [Registry.hasObject_iff]
  split
  · rfl
  · simp

theorem finishObject_names {rules : Rules} {name : String} {heading : Heading}
    {children : List Declaration} {before after : Registry}
    (finished : finishObject rules name heading children before = .ok after) :
    after.objects.map (·.name) = insertName (before.objects.map (·.name)) name := by
  obtain ⟨⟨middle, members⟩, collected, made⟩ := ok_of_bind finished
  cases made
  obtain ⟨_, objects, _⟩ := collectMembers_ok true collected
  rw [registerObject_names, objects]

/-- A strict walk over objects that finishes has registered every record it extracts, in order. -/
theorem walkAllObjects_names {rules : Rules} {declarations : List Declaration}
    {scope : Option String} {before after : Registry}
    (walked : walkAllObjects rules true scope before declarations = .ok after) :
    after.objects.map (·.name) =
      (extractedNames .objects scope declarations).foldl insertName
        (before.objects.map (·.name)) := by
  induction declarations using Declaration.forest_induction generalizing scope before after with
  | nil =>
    cases walked
    rfl
  | cons heading children rest inner last =>
    rw [walkAllObjects, walkObjects] at walked
    obtain ⟨middle, first, walked⟩ := ok_of_bind walked
    rw [last walked, extractedNames_cons, List.foldl_append]
    congr 1
    split at first
    · rename_i passed
      cases first
      cases endpoint : heading.isEndpoint with
      | true =>
        simp [Place.inside, Place.extracts, endpoint, extractedNames_behind]
      | false =>
        rw [endpoint, Bool.or_false, Bool.not_eq_true'] at passed
        simp [passed]
    · rename_i entered
      simp only [Bool.or_eq_true, Bool.not_eq_true', not_or, Bool.not_eq_false,
        Bool.not_eq_true] at entered
      simp only [entered.1, entered.2, if_true, Place.inside, Place.extracts, Bool.false_eq_true,
        if_false, Bool.not_false, Bool.and_true, List.foldl_append]
      dsimp only at first
      split at first
      · rename_i object
        obtain ⟨filled, below, finished⟩ := ok_of_bind (tolerate_strict first)
        rw [finishObject_names finished, inner below, if_pos object]
        rfl
      · rename_i plain
        rw [inner first, if_neg plain]
        rfl

theorem extractPayloads_names {rules : Rules} {name : String} {children : List Declaration}
    {before after : Registry}
    (extracted : extractPayloads rules true name before children = .ok after) :
    after.objects.map (·.name) =
      (extractedNames .payload (some name) children).foldl insertName
        (before.objects.map (·.name)) := by
  induction children generalizing before with
  | nil =>
    cases extracted
    rfl
  | cons child rest ih =>
    rw [extractPayloads_cons] at extracted
    obtain ⟨middle, first, rest_eq⟩ := ok_of_bind extracted
    obtain ⟨heading, children⟩ := child
    rw [ih rest_eq, extractedNames_cons, List.foldl_append]
    congr 1
    split at first
    · rename_i object
      obtain ⟨filled, below, finished⟩ := ok_of_bind first
      have object : heading.isObject = true := object
      rw [finishObject_names finished, walkAllObjects_names below,
        if_pos (Heading.isType_of_isObject object)]
      simp only [Place.inside, Place.extracts, object, Bool.not_true, Bool.and_false,
        Bool.false_eq_true, if_false, if_true, List.foldl_append]
      rfl
    · rename_i plain
      have plain : heading.isObject = false := Bool.not_eq_true _ ▸ plain
      rw [walkObjects_eq_walkAllObjects] at first
      rw [walkAllObjects_names first, extractedNames_cons]
      simp only [Place.inside, Place.extracts, plain, Bool.not_false, Bool.and_true,
        Bool.false_and, Bool.false_eq_true, if_false, List.append_nil, extractedNames_nil]

theorem registerEndpoint_objects (registry : Registry) (endpoint : Endpoint) :
    (registry.registerEndpoint endpoint).objects = registry.objects := by
  unfold Registry.registerEndpoint
  split <;> rfl

theorem walkAllEndpoints_names {rules : Rules} {declarations : List Declaration}
    {scope : Option String} {before after : Registry}
    (walked : walkAllEndpoints rules true scope before declarations = .ok after) :
    after.objects.map (·.name) =
      (extractedNames .endpoints scope declarations).foldl insertName
        (before.objects.map (·.name)) := by
  induction declarations using Declaration.forest_induction generalizing scope before after with
  | nil =>
    cases walked
    rfl
  | cons heading children rest inner last =>
    rw [walkAllEndpoints, walkEndpoints] at walked
    obtain ⟨middle, first, walked⟩ := ok_of_bind walked
    rw [last walked, extractedNames_cons, List.foldl_append]
    congr 1
    split at first
    · rename_i other
      cases first
      rw [if_neg (by simpa using other)]
      rfl
    · rename_i type
      rw [if_pos (by simpa using type)]
      split at first
      · rename_i endpoint
        obtain ⟨⟨filled, parsed⟩, success, registered⟩ := ok_of_bind (tolerate_strict first)
        cases registered
        simp only [Place.inside, Place.extracts, endpoint, if_true, Bool.false_eq_true, if_false,
          List.append_nil]
        rw [registerEndpoint_objects,
          extractPayloads_names (extractPayloads_of_parseEndpoint success).2]
      · rename_i plain
        simp only [Place.inside, Place.extracts, plain, Bool.false_eq_true, if_false,
          List.append_nil]
        exact inner first

theorem walkAllOneOfs_objects {rules : Rules} {strict : Bool} {declarations : List Declaration}
    {scope : Option String} {before after : Registry}
    (walked : walkAllOneOfs rules strict scope before declarations = .ok after) :
    after.objects = before.objects := by
  have steps := (walkAllOneOfs_run ..).finished walked
  have kept : ∀ registry next, OneOfStep rules strict registry next →
      registry.objects = before.objects → next.objects = before.objects := by
    intro registry next step same
    cases step with
    | leftOut error _ => exact same
    | tolerated error _ => exact same
    | ordinary name => exact same
    | registered wrapper _ =>
      unfold Registry.registerWrapper
      split <;> exact same
  exact steps_keep kept steps rfl

/-- After a strict run that returns, exactly the extracted records are registered. -/
theorem extract_hasObject_iff {rules : Rules} {source : List Declaration}
    (success : (extract rules true source).raised = none) (name : String) :
    (extract rules true source).registry.hasObject name = true ↔
      name ∈ extractedNames .outer none source := by
  rw [(extract_eq_runAll rules true source).2] at success
  rw [(extract_eq_runAll rules true source).1]
  cases finished : runAll rules true source with
  | error stopped =>
    rw [finished] at success
    cases success
  | ok registry =>
    obtain ⟨wrapped, oneOfs, finished⟩ := ok_of_bind finished
    obtain ⟨filled, objects, endpoints⟩ := ok_of_bind finished
    obtain ⟨symbols, scopes, fresh⟩ := collectAllSymbols_frame source none {}
    have empty : wrapped.objects = [] := by
      rw [walkAllOneOfs_objects oneOfs, fresh]
    rw [Registry.hasObject_iff, registryLeft, walkAllEndpoints_names endpoints,
      walkAllObjects_names objects, empty, mem_extractedNames_outer]
    simp only [mem_foldl_insertName, List.map_nil, List.not_mem_nil, false_or]

theorem addSymbol_symbols {registry : Registry} {added name : String}
    (known : name ∈ (registry.addSymbol added).symbols) :
    name ∈ registry.symbols ∨ name = added := by
  unfold Registry.addSymbol at known
  split at known
  · exact .inl known
  · simpa using known

/-- Every symbol is the name of an object record. -/
theorem collectAllSymbols_symbols (place : Place) (declarations : List Declaration)
    (scope : Option String) (registry : Registry) (name : String)
    (known : name ∈ (collectAllSymbols scope registry declarations).symbols) :
    name ∈ registry.symbols ∨
      ∃ extracted, (name, extracted) ∈ allObjectRecords place scope declarations := by
  induction declarations using Declaration.forest_induction generalizing place scope registry with
  | nil => exact .inl known
  | cons heading children rest inner after =>
    rw [allObjectRecords, objectRecords]
    rw [collectAllSymbols, collectSymbols] at known
    rcases after place scope _ known with known | ⟨extracted, listed⟩
    · split at known
      · rename_i type
        dsimp only at known
        rw [if_pos type]
        have scope_symbols : ∀ name, (registry.addScope name scope).symbols = registry.symbols := by
          intro name
          unfold Registry.addScope
          split <;> rfl
        rcases inner (place.inside heading) _ _ known with known | ⟨extracted, listed⟩
        · split at known
          · rename_i object
            rcases addSymbol_symbols known with old | rfl
            · rw [scope_symbols] at old
              exact .inl old
            · exact .inr ⟨place.extracts heading, by simp [object]⟩
          · rw [scope_symbols] at known
            exact .inl known
        · exact .inr ⟨extracted, by simp [listed]⟩
      · exact .inl known
    · exact .inr ⟨extracted, List.mem_append_right _ listed⟩

/-! ## Sources that are extracted as a whole -/

mutual

/-- No endpoint lies in another or is itself an object. -/
def endpointsApart (enclosed : Bool) : Declaration → Bool
  | .node heading children =>
    if heading.isType then
      !(heading.isEndpoint && (enclosed || heading.isObject)) &&
        allEndpointsApart (enclosed || heading.isEndpoint) children
    else true

def allEndpointsApart (enclosed : Bool) : List Declaration → Bool
  | [] => true
  | declaration :: rest => endpointsApart enclosed declaration && allEndpointsApart enclosed rest

end

/-- The places that are met outside of endpoints, and inside of one that is entered. -/
def Place.IsMet (enclosed : Bool) : Place → Prop
  | .outer => enclosed = false
  | .payload | .objects => enclosed = true
  | .endpoints | .behind => False

theorem Place.IsMet.inside {enclosed : Bool} {place : Place} {heading : Heading}
    (met : place.IsMet enclosed)
    (alone : (heading.isEndpoint && (enclosed || heading.isObject)) = false) :
    (place.inside heading).IsMet (enclosed || heading.isEndpoint) ∧
      (heading.isObject = true → place.extracts heading = true) := by
  cases endpoint : heading.isEndpoint with
  | true =>
    rw [endpoint, Bool.true_and, Bool.or_eq_false_iff] at alone
    cases place <;> simp_all [IsMet, Place.inside, extracts]
  | false => cases place <;> simp_all [IsMet, Place.inside, extracts]

theorem allObjectRecords_extracted {declarations : List Declaration} {place : Place}
    {enclosed : Bool} (scope : Option String) (met : place.IsMet enclosed)
    (apart : allEndpointsApart enclosed declarations = true) :
    ∀ record ∈ allObjectRecords place scope declarations, record.2 = true := by
  induction declarations using Declaration.forest_induction generalizing place enclosed scope with
  | nil => simp [allObjectRecords]
  | cons heading children rest inner after =>
    intro record listed
    rw [allEndpointsApart, endpointsApart, Bool.and_eq_true] at apart
    rw [allObjectRecords, objectRecords] at listed
    rcases List.mem_append.mp listed with here | later
    · split at here
      · rename_i type
        rw [if_pos type, Bool.and_eq_true, Bool.not_eq_true'] at apart
        obtain ⟨below, own⟩ := met.inside apart.1.1
        rcases List.mem_append.mp here with nested | self
        · exact inner _ below apart.1.2 record nested
        · split at self
          · rename_i object
            rw [List.mem_singleton.mp self]
            exact own object
          · cases self
      · cases here
    · exact after scope met apart.2 record later

end ApiHandbook.Extraction
