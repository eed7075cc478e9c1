import Mathlib
import ApiHandbook.Proofs.Extraction.Coverage
import ApiHandbook.Proofs.Extraction.Records
import ApiHandbook.Proofs.Registry.Matching

/-!
# What the types of fields refer to

After a strict run over plain names without wrappers, every member refers to what the name of its
type means in its record. That is lexical scoping with two exceptions: an object elsewhere whose
path ends with the name in a closer scope comes first, and a dotted name is looked up only as it
is written, not in the scopes around the record.
-/
namespace ApiHandbook.Extraction
open Schema Source

/-! ## Symbols and scopes -/

/-- Enters one type into the tables of names. -/
def enterType (registry : Registry) (type : Occurrence) : Registry :=
  let registry := registry.addScope type.name (scopeOf type.around)
  if type.heading.isObject then registry.addSymbol type.name else registry

/-- Types are entered in source order. -/
theorem collectAllSymbols_eq_foldl (declarations : List Declaration) (around : List Heading)
    (registry : Registry) :
    collectAllSymbols (scopeOf around) registry declarations =
      (allOccurrences around declarations).foldl enterType registry := by
  induction declarations using Declaration.forest_induction generalizing around registry with
  | nil => rfl
  | cons heading children rest inner after =>
    rw [collectAllSymbols, collectSymbols, allOccurrences_cons, List.foldl_append, after]
    congr 1
    split
    · dsimp only
      rw [← scopeOf_append, inner]
      rfl
    · rfl

theorem addScope_symbols (registry : Registry) (name : String) (parent : Option String) :
    (registry.addScope name parent).symbols = registry.symbols := by
  unfold Registry.addScope
  split <;> rfl

theorem addSymbol_scopes (registry : Registry) (name : String) :
    (registry.addSymbol name).scopes = registry.scopes := by
  unfold Registry.addSymbol
  split <;> rfl

theorem foldl_enterType_symbols (types : List Occurrence) :
    (types.foldl enterType {}).symbols =
      ((types.filter (·.heading.isObject)).map (·.name)).eraseDups := by
  induction types using List.reverseRecOn with
  | nil => rfl
  | append_singleton types type ih =>
    rw [List.foldl_append, List.foldl_cons, List.foldl_nil, enterType, List.filter_append,
      List.map_append]
    cases object : type.heading.isObject with
    | true =>
      have own : [type].filter (·.heading.isObject) = [type] := by simp [object]
      rw [if_pos rfl, own, List.map_singleton, eraseDups_append_singleton, Registry.addSymbol,
        addScope_symbols, ih]
      simp only [List.contains_iff_mem, List.mem_eraseDups]
      split
      · rw [List.append_nil, addScope_symbols, ih]
      · rfl
    | false =>
      have none : [type].filter (·.heading.isObject) = [] := by simp [object]
      rw [if_neg Bool.false_ne_true, none, List.map_nil, List.append_nil, addScope_symbols, ih]

theorem mem_foldl_enterType_scopes {types : List Occurrence} {entry : String × Option String}
    (listed : entry ∈ (types.foldl enterType {}).scopes) :
    ∃ type ∈ types, entry = (type.name, scopeOf type.around) := by
  induction types using List.reverseRecOn with
  | nil => cases listed
  | append_singleton types type ih =>
    have added : entry ∈
        ((types.foldl enterType {}).addScope type.name (scopeOf type.around)).scopes := by
      rw [List.foldl_append, List.foldl_cons, List.foldl_nil, enterType] at listed
      split at listed
      · rwa [addSymbol_scopes] at listed
      · exact listed
    have new_or_old : entry ∈ (types.foldl enterType {}).scopes ∨
        entry = (type.name, scopeOf type.around) := by
      unfold Registry.addScope at added
      split at added
      · exact .inl added
      · simpa using added
    rcases new_or_old with old | rfl
    · obtain ⟨earlier, member, rfl⟩ := ih old
      exact ⟨earlier, List.mem_append_left _ member, rfl⟩
    · exact ⟨type, by simp, rfl⟩

theorem foldl_enterType_wrappers (source : List Declaration) :
    ((allOccurrences [] source).foldl enterType {}).wrappers = [] := by
  obtain ⟨symbols, scopes, fresh⟩ := collectAllSymbols_frame source none {}
  rw [← collectAllSymbols_eq_foldl source [] {}]
  exact congrArg Registry.wrappers fresh

/-! ## Plain sources -/

theorem name_eq_pathName {type : Occurrence} (plain : IsPlainPath type.path) :
    type.name = pathName type.path := by
  have around : ∀ part ∈ type.around.map (·.name), IsPlainName part :=
    fun part listed => plain.plain part (List.mem_append_left _ listed)
  rw [Occurrence.name, Occurrence.path, scopeOf_eq_pathScope, qualifiedName_pathScope around]
  exact fun heading listed => around heading.name (List.mem_map_of_mem listed)

theorem isPathTable_scopes {types : List Occurrence}
    (plain : ∀ type ∈ types, IsPlainPath type.path) :
    IsPathTable (types.foldl enterType {}).scopes := by
  intro entry listed
  obtain ⟨type, member, rfl⟩ := mem_foldl_enterType_scopes listed
  have type_plain := plain type member
  refine ⟨type.path, type_plain, ?_⟩
  rw [name_eq_pathName type_plain, Occurrence.path, List.dropLast_concat, scopeOf_eq_pathScope]
  exact fun heading around =>
    type_plain.plain _ (List.mem_append_left _ (List.mem_map_of_mem around))

/-- Without enumerations to choose from, the pass over them does nothing. -/
theorem walkAllOneOfs_ordinary (rules : Rules) (strict : Bool) {declarations : List Declaration}
    (around : List Heading) (scope : Option String) (registry : Registry)
    (ordinary : ∀ type ∈ allOccurrences around declarations, type.heading.isOneOf = false) :
    walkAllOneOfs rules strict scope registry declarations = .ok registry := by
  induction declarations using Declaration.forest_induction generalizing around scope with
  | nil => rfl
  | cons heading children rest inner after =>
    have behind := after around scope
      (fun type listed => ordinary type (mem_allOccurrences_cons.mpr (.inr listed)))
    rw [walkAllOneOfs, walkOneOfs]
    split
    · rename_i entered
      have own : heading.isOneOf = false :=
        ordinary ⟨around, heading, children⟩ (mem_allOccurrences_cons.mpr (.inl ⟨entered, .inl rfl⟩))
      have below := inner (around ++ [heading]) (some (qualifiedName scope heading.name))
        (fun type listed => ordinary type (mem_allOccurrences_cons.mpr (.inl ⟨entered, .inr listed⟩)))
      rw [own]
      show (walkAllOneOfs rules strict _ registry children >>= _) = _
      rw [below]
      exact behind
    · exact behind

/-! ## Extracted records are declared ones -/

theorem mem_allOccurrences_of_walked {declarations : List Declaration} {around : List Heading}
    {record : Occurrence} (walked : record ∈ allWalkedObjects around declarations) :
    record ∈ allOccurrences around declarations := by
  induction declarations using Declaration.forest_induction generalizing around with
  | nil => cases walked
  | cons heading children rest inner after =>
    rw [allWalkedObjects, walkedObjects] at walked
    rw [mem_allOccurrences_cons]
    rcases List.mem_append.mp walked with here | later
    · left
      split at here
      · rename_i entered
        refine ⟨(Bool.and_eq_true_iff.mp entered).1, ?_⟩
        rcases List.mem_append.mp here with below | own
        · exact .inr (inner below)
        · split at own
          · exact .inl (List.mem_singleton.mp own)
          · cases own
      · cases here
    · exact .inr (after later)

theorem mem_allOccurrences_of_payload {children : List Declaration} {around : List Heading}
    {record : Occurrence} (extracted : record ∈ payloadObjects around children) :
    record ∈ allOccurrences around children := by
  induction children with
  | nil => cases extracted
  | cons child rest ih =>
    obtain ⟨heading, children⟩ := child
    rw [payloadObjects] at extracted
    rw [mem_allOccurrences_cons]
    rcases List.mem_append.mp extracted with here | later
    · left
      split at here
      · rename_i object
        refine ⟨Heading.isType_of_isObject object, ?_⟩
        rcases List.mem_append.mp here with below | own
        · exact .inr (mem_allOccurrences_of_walked below)
        · exact .inl (List.mem_singleton.mp own)
      · have alone : record ∈ allWalkedObjects around [.node heading children] := by
          rw [allWalkedObjects, allWalkedObjects, List.append_nil]
          exact here
        rcases mem_allOccurrences_cons.mp (mem_allOccurrences_of_walked alone) with first | none
        · exact first
        · cases none
    · exact .inr (ih later)

theorem mem_allOccurrences_of_endpoint {declarations : List Declaration} {around : List Heading}
    {record : Occurrence} (extracted : record ∈ allEndpointObjects around declarations) :
    record ∈ allOccurrences around declarations := by
  induction declarations using Declaration.forest_induction generalizing around with
  | nil => cases extracted
  | cons heading children rest inner after =>
    rw [allEndpointObjects, endpointObjects] at extracted
    rw [mem_allOccurrences_cons]
    rcases List.mem_append.mp extracted with here | later
    · left
      split at here
      · rename_i endpoint
        exact ⟨isType_of_isEndpoint endpoint, .inr (mem_allOccurrences_of_payload here)⟩
      · split at here
        · rename_i type
          exact ⟨type, .inr (inner here)⟩
        · cases here
    · exact .inr (after later)

theorem mem_allOccurrences_of_extracted {source : List Declaration} {record : Occurrence}
    (extracted : record ∈ allWalkedObjects [] source ++ allEndpointObjects [] source) :
    record ∈ allOccurrences [] source := by
  rcases List.mem_append.mp extracted with outer | inner
  · exact mem_allOccurrences_of_walked outer
  · exact mem_allOccurrences_of_endpoint inner

/-! ## References -/

/-- What the types of fields should mean: for every registered object the record it was made from
has one member for each stored field of a named type. If the name is a path that does not end in
a primitive keyword, `meaning` holds of the path in that record and of the type of the member, or
of its items. -/
def ReferencesMean (rules : Rules) (source : List Declaration)
    (meaning : Occurrence → List String → ValueType → Prop) : Prop :=
  ∀ object ∈ (extract rules true source).registry.objects, ∃ record members,
    (allWalkedObjects [] source ++ allEndpointObjects [] source).find? (·.name == object.name) =
      some record ∧
    object.members =
      (if record.heading.isNominal then typeMember record.name :: members else members) ∧
    List.Forall₂ (fun field member => member.key = field.name ∧
        ∀ shape parts last, field.shape = some shape →
          shape.name = some (dottedName (parts ++ [last])) → IsPlainPath (parts ++ [last]) →
          rules.primitives.lookup last = none →
          ∃ found, member.valueType = (if shape.kind = .array then .array found else found) ∧
            meaning record (parts ++ [last]) found)
      ((Declaration.fieldHeadings record.children).filter (·.isDocumented)) members

/-- The objects of a source, in source order. -/
def declaredObjects (source : List Declaration) : List Occurrence :=
  (allOccurrences [] source).filter (·.heading.isObject)

theorem declaredObjects_arePaths {source : List Declaration}
    (plain : ∀ type ∈ allOccurrences [] source, IsPlainPath type.path) :
    ArePaths (declaredObjects source) := by
  intro type listed
  have type_plain := plain type (List.mem_of_mem_filter listed)
  exact ⟨type_plain, name_eq_pathName type_plain⟩

/-- How names are understood in a record: they refer to what they mean there, and that is what
lexical scoping finds exactly if no other object comes first. -/
def FollowsScopes (source : List Declaration) (record : Occurrence) (parts : List String)
    (found : ValueType) : Prop :=
  (∃ meant, Denotes (declaredObjects source) record.path parts meant ∧
    found = .object meant.name) ∧
  ∀ lexical, LexicallyNames (declaredObjects source) record.path parts lexical →
    (found = .object lexical.name ↔ Undisputed (declaredObjects source) record.path lexical parts)

theorem memberOf_resolves {rules : Rules} {registry : Registry} {object : String} {field : Heading}
    {shape : TypeShape} {member : Member}
    (made : memberOf rules registry object field shape = .ok member) :
    member.key = field.name ∧ ∃ name found, shape.name = some name ∧
      registry.resolve? rules (registry.lookup name (some object)) = some found ∧
      member.valueType = if shape.kind = .array then .array found else found := by
  obtain ⟨⟨type, required⟩, resolved, made⟩ := ok_of_bind made
  cases made
  exact ⟨rfl, Registry.resolveShape_ok resolved⟩

/-- The objects of a strict run, each with the record that was extracted first under its name. -/
theorem builtFrom_of_mem_objects {rules : Rules} {source : List Declaration}
    (ordinary : ∀ type ∈ allOccurrences [] source, type.heading.isOneOf = false)
    (success : (extract rules true source).raised = none) {object : SchemaObject}
    (registered : object ∈ (extract rules true source).registry.objects) :
    ∃ record,
      (allWalkedObjects [] source ++ allEndpointObjects [] source).find? (·.name == object.name) =
        some record ∧
      BuiltFrom rules ((allOccurrences [] source).foldl enterType {}) record object := by
  obtain ⟨wrapped, oneOfs, noObjects, _, registers⟩ := extract_registers success
  rw [walkAllOneOfs_ordinary rules true [] none _ ordinary] at oneOfs
  have collected := collectAllSymbols_eq_foldl source [] {}
  obtain ⟨made, built, table⟩ := registers.objects
  rw [noObjects] at table
  obtain ⟨_, _, firsts⟩ := ofEntries_of_forall₂ (fun _ _ built => built.name) built
  have entries : (extract rules true source).registry.objects =
      (Table.ofEntries SchemaObject.name made).entries := congrArg Table.entries table
  obtain ⟨record, found, object_built⟩ := firsts object (entries ▸ registered)
  refine ⟨record, found, ?_⟩
  rw [← collected]
  cases oneOfs
  exact object_built

/-- In a source of plain names and without choices, every member of a named type refers to what
the name means in its record. -/
theorem strict_references_scoped (rules : Rules) (source : List Declaration)
    (plain : ∀ type ∈ allOccurrences [] source, IsPlainPath type.path)
    (ordinary : ∀ type ∈ allOccurrences [] source, type.heading.isOneOf = false)
    (success : (extract rules true source).raised = none) :
    ReferencesMean rules source (FollowsScopes source) := by
  intro object registered
  obtain ⟨record, first, built⟩ := builtFrom_of_mem_objects ordinary success registered
  obtain ⟨members, members_eq, fields⟩ := built.members
  refine ⟨record, members, first, members_eq, fields.imp ?_⟩
  rintro field member ⟨shape, shape_eq, made⟩
  obtain ⟨key, name, found, name_eq, resolved, type_eq⟩ := memberOf_resolves made
  refine ⟨key, ?_⟩
  intro written parts last written_eq dotted parts_plain no_keyword
  cases shape_eq.symm.trans written_eq
  cases name_eq.symm.trans dotted
  have record_plain : IsPlainPath record.path :=
    plain record (mem_allOccurrences_of_extracted (List.mem_of_find?_eq_some first))
  have paths := declaredObjects_arePaths plain
  rw [name_eq_pathName record_plain] at resolved
  obtain ⟨meant, denotes, rfl⟩ := Registry.resolve?_denotes paths (foldl_enterType_symbols _)
    (isPathTable_scopes plain) (foldl_enterType_wrappers source) record_plain parts_plain
    no_keyword resolved
  refine ⟨.object meant.name, type_eq, ⟨meant, denotes, rfl⟩, ?_⟩
  intro lexical named
  rw [← denotes.path_eq_iff named, ValueType.object.injEq]
  obtain ⟨meant_plain, meant_name⟩ := paths meant denotes.mem
  obtain ⟨lexical_plain, lexical_name⟩ := paths lexical named.1
  rw [meant_name, lexical_name]
  exact ⟨meant_plain.pathName_inj lexical_plain, congrArg pathName⟩

/-- Names that lexical scoping finds, in an inner scope and at the top, and one that only ends the
path of an object. -/
theorem references_in_group_scoped :
    let source : List Declaration :=
      [.groupOf "G" [.objectOf "A" [.ofType "f" "N", .ofType "g" "C"],
          .objectOf "N" [.ofType "h" "B.C"]],
        .objectOf "B" [.objectOf "C" []], .objectOf "N" []]
    (∀ type ∈ allOccurrences [] source, IsPlainPath type.path) ∧
    (∀ type ∈ allOccurrences [] source, type.heading.isOneOf = false) ∧
    (extract {} true source).raised = none ∧
    ReferencesMean {} source (FollowsScopes source) := by
  intro source
  have plain : ∀ type ∈ allOccurrences [] source, IsPlainPath type.path := by decide +kernel
  have ordinary : ∀ type ∈ allOccurrences [] source, type.heading.isOneOf = false := by
    decide +kernel
  have success : (extract {} true source).raised = none := by cbv
  exact ⟨plain, ordinary, success, strict_references_scoped {} source plain ordinary success⟩

/-- Lexical scoping fails for single and for dotted names: here `N` in `A` is found at the end of
`X.A.N` before the `N` outside, and `B.C` is not looked up in `A`. -/
theorem references_leave_lexical_scope :
    let source : List Declaration :=
      [.objectOf "A" [.ofType "f" "N", .ofType "g" "B.C", .groupOf "B" [.objectOf "C" []]],
        .objectOf "N" [], .groupOf "B" [.objectOf "C" []],
        .groupOf "X" [.objectOf "A" [.objectOf "N" []]]]
    let lexically (written : List String → Prop) (record : Occurrence) (parts : List String)
        (found : ValueType) : Prop :=
      written parts → ∀ lexical,
        LexicallyNames (declaredObjects source) record.path parts lexical →
          found = .object lexical.name
    (∀ type ∈ allOccurrences [] source, IsPlainPath type.path) ∧
    (∀ type ∈ allOccurrences [] source, type.heading.isOneOf = false) ∧
    (extract {} true source).raised = none ∧
    ¬ ReferencesMean {} source (lexically fun parts => parts.length = 1) ∧
    ¬ ReferencesMean {} source (lexically fun parts => 1 < parts.length) := by
  intro source lexically
  let record : Occurrence := ⟨[], { kind := .record, name := "A", conformances := ["Object"] },
    [.ofType "f" "N", .ofType "g" "B.C", .groupOf "B" [.objectOf "C" []]]⟩
  let object : SchemaObject := ⟨"A", "", [⟨"f", .object "X_A_N", true, none, ""⟩,
    ⟨"g", .object "B_C", true, none, ""⟩]⟩
  have ran : (let run := extract {} true source; (run.raised, run.registry.objects)) =
      (none, [⟨"A_B_C", "", []⟩, object, ⟨"N", "", []⟩, ⟨"B_C", "", []⟩, ⟨"X_A_N", "", []⟩,
        ⟨"X_A", "", []⟩]) := by
    cbv
  obtain ⟨success, registered⟩ := Prod.mk.inj ran
  have meant : ∀ meaning, ReferencesMean {} source meaning →
      meaning record ["N"] (.object "X_A_N") ∧ meaning record ["B", "C"] (.object "B_C") := by
    intro meaning mean
    obtain ⟨found, members, first, members_eq, fields⟩ := mean object (by simp [registered])
    have first_eq : found = record := Option.some.inj (first.symm.trans rfl)
    subst first_eq
    change object.members = members at members_eq
    subst members_eq
    cases fields with
    | cons single fields =>
      cases fields with
      | cons dotted fields =>
        obtain ⟨type, rfl, single⟩ :=
          single.2 (.plain "N") [] "N" rfl (by cbv) (by decide) (by decide)
        obtain ⟨type, rfl, dotted⟩ :=
          dotted.2 (.plain "B.C") ["B"] "C" rfl (by cbv) (by decide) (by decide)
        exact ⟨single, dotted⟩
  let outside : Occurrence := ⟨[], { kind := .record, name := "N", conformances := ["Object"] }, []⟩
  let nested : Occurrence := ⟨[record.heading, { kind := .record, name := "B" }],
    { kind := .record, name := "C", conformances := ["Object"] }, []⟩
  have paths : (declaredObjects source).map (·.path) =
      [["A"], ["A", "B", "C"], ["N"], ["B", "C"], ["X", "A"], ["X", "A", "N"]] := by
    decide +kernel
  have single : LexicallyNames (declaredObjects source) ["A"] ["N"] outside := by
    refine ⟨.tail _ (.tail _ (.head _)), [], List.nil_prefix, rfl, ?_⟩
    intro closer closer_place longer other listed
    have closer_eq : closer = ["A"] :=
      closer_place.eq_of_length_le (Nat.succ_le_of_lt longer)
    have other_path := List.mem_map_of_mem (f := (·.path)) listed
    intro other_eq
    rw [paths] at other_path
    rw [other_eq, closer_eq] at other_path
    revert other_path
    decide
  have dotted : LexicallyNames (declaredObjects source) ["A"] ["B", "C"] nested := by
    refine ⟨.tail _ (.head _), ["A"], List.prefix_rfl, rfl, ?_⟩
    intro closer closer_place longer
    exact absurd closer_place.length_le (Nat.not_le_of_lt longer)
  refine ⟨by decide +kernel, by decide +kernel, success, ?_, ?_⟩
  · intro mean
    exact absurd ((meant _ mean).1 rfl outside single) (by decide +kernel)
  · intro mean
    exact absurd ((meant _ mean).2 (by decide) nested dotted) (by decide +kernel)

end ApiHandbook.Extraction
