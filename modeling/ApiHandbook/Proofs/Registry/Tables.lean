import Mathlib.Data.List.Induction
import ApiHandbook.Proofs.Registry.Growth

/-!
# Tables in which the first entry of a name wins

Objects and endpoints are registered by one rule: the first of a name is kept, every later one is
noted as a duplicate. So the names in a table are those of all entries that came, each at its
first place, and the duplicates are exactly the others, in order.
-/
namespace ApiHandbook

/-- The names that come again, each time they do, when some have been seen before. -/
def repeatsAfter (seen : List String) : List String → List String
  | [] => []
  | name :: rest =>
    if name ∈ seen then name :: repeatsAfter seen rest else repeatsAfter (name :: seen) rest

/-- All but the first occurrence of each name, in order. -/
def repeats (names : List String) : List String := repeatsAfter [] names

theorem repeatsAfter_append_singleton (seen names : List String) (name : String) :
    repeatsAfter seen (names ++ [name]) =
      repeatsAfter seen names ++ if name ∈ seen ∨ name ∈ names then [name] else [] := by
  induction names generalizing seen with
  | nil => by_cases known : name ∈ seen <;> simp [repeatsAfter, known]
  | cons first rest ih =>
    rw [List.cons_append, repeatsAfter, repeatsAfter]
    by_cases known : first ∈ seen
    · rw [if_pos known, if_pos known, ih, List.cons_append]
      have same : (name ∈ seen ∨ name ∈ first :: rest) ↔ (name ∈ seen ∨ name ∈ rest) := by
        constructor
        · rintro (old | listed)
          · exact .inl old
          · rcases List.mem_cons.mp listed with rfl | later
            · exact .inl known
            · exact .inr later
        · rintro (old | later)
          · exact .inl old
          · exact .inr (List.mem_cons_of_mem _ later)
      simp only [same]
    · rw [if_neg known, if_neg known, ih]
      have same : (name ∈ first :: seen ∨ name ∈ rest) ↔ (name ∈ seen ∨ name ∈ first :: rest) := by
        simp only [List.mem_cons]
        tauto
      simp only [same]

theorem repeats_append_singleton (names : List String) (name : String) :
    repeats (names ++ [name]) = repeats names ++ if name ∈ names then [name] else [] := by
  simpa [repeats] using repeatsAfter_append_singleton [] names name

theorem eraseDups_append_singleton (names : List String) (name : String) :
    (names ++ [name]).eraseDups = names.eraseDups ++ if name ∈ names then [] else [name] := by
  rw [List.eraseDups_append]
  by_cases known : name ∈ names <;> simp [List.removeAll, known, List.eraseDups_cons]

/-- Entries with their duplicates. -/
structure Table (α : Type) where
  entries : List α
  repeated : List String

namespace Table
variable {α : Type} (nameOf : α → String)

def enter (table : Table α) (entry : α) : Table α :=
  if nameOf entry ∈ table.entries.map nameOf then
    { table with repeated := table.repeated ++ [nameOf entry] }
  else { table with entries := table.entries ++ [entry] }

theorem enter_known {table : Table α} {entry : α}
    (known : nameOf entry ∈ table.entries.map nameOf) :
    table.enter nameOf entry = { table with repeated := table.repeated ++ [nameOf entry] } :=
  if_pos known

theorem enter_new {table : Table α} {entry : α}
    (new : nameOf entry ∉ table.entries.map nameOf) :
    table.enter nameOf entry = { table with entries := table.entries ++ [entry] } :=
  if_neg new

/-- The table of some entries that came one after another. -/
def ofEntries (came : List α) : Table α := came.foldl (enter nameOf) ⟨[], []⟩

theorem ofEntries_append_singleton (came : List α) (entry : α) :
    ofEntries nameOf (came ++ [entry]) = (ofEntries nameOf came).enter nameOf entry := by
  simp [ofEntries]

theorem ofEntries_names (came : List α) :
    (ofEntries nameOf came).entries.map nameOf = (came.map nameOf).eraseDups := by
  induction came using List.reverseRecOn with
  | nil => rfl
  | append_singleton came entry ih =>
    rw [ofEntries_append_singleton, List.map_append, List.map_singleton, eraseDups_append_singleton,
      ← ih, enter]
    have known_iff : nameOf entry ∈ (ofEntries nameOf came).entries.map nameOf ↔
        nameOf entry ∈ came.map nameOf := by
      rw [ih, List.mem_eraseDups]
    split
    · rename_i known
      rw [if_pos (known_iff.mp known), List.append_nil]
    · rename_i new
      rw [if_neg (fun known => new (known_iff.mpr known)), List.map_append, List.map_singleton]

theorem ofEntries_repeated (came : List α) :
    (ofEntries nameOf came).repeated = repeats (came.map nameOf) := by
  induction came using List.reverseRecOn with
  | nil => rfl
  | append_singleton came entry ih =>
    rw [ofEntries_append_singleton, List.map_append, List.map_singleton, repeats_append_singleton,
      ← ih, enter, ofEntries_names]
    simp only [List.mem_eraseDups]
    split
    · rfl
    · exact (List.append_nil _).symm

/-- What is in a table came before all others of its name. -/
theorem find?_of_mem_ofEntries {came : List α} {entry : α}
    (kept : entry ∈ (ofEntries nameOf came).entries) :
    came.find? (nameOf · == nameOf entry) = some entry := by
  induction came using List.reverseRecOn with
  | nil => cases kept
  | append_singleton came last ih =>
    rw [List.find?_append]
    rw [ofEntries_append_singleton, enter] at kept
    split at kept
    · rw [ih kept]
      rfl
    · rename_i new
      rcases List.mem_append.mp kept with old | added
      · rw [ih old]
        rfl
      · rw [List.mem_singleton] at added
        subst added
        have none_before : came.find? (nameOf · == nameOf entry) = none := by
          rw [List.find?_eq_none]
          intro other member same
          apply new
          rw [ofEntries_names, List.mem_eraseDups]
          exact List.mem_map.mpr ⟨other, member, by simpa using same⟩
        rw [none_before]
        simp

end Table

namespace Schema.SchemaError

/-- The name that an error finds declared twice, among declarations of one kind. -/
def duplicateOf? (kind : String) : SchemaError → Option String
  | duplicate name found => if found = kind then some name else none
  | _ => none

theorem duplicateOf?_of_isUnsupported {error : SchemaError} (kind : String)
    (unsupported : error.isUnsupported = true) : error.duplicateOf? kind = none := by
  cases error with
  | unsupported typeText declaration field => rfl
  | _ => cases unsupported

end Schema.SchemaError

namespace Registry
open Schema

/-- The names recorded as duplicates of one kind, in order. -/
def duplicates (registry : Registry) (kind : String) : List String :=
  registry.errors.filterMap (·.duplicateOf? kind)

def objectTable (registry : Registry) : Table SchemaObject :=
  ⟨registry.objects, registry.duplicates "object"⟩

def endpointTable (registry : Registry) : Table Endpoint :=
  ⟨registry.endpoints, registry.duplicates "endpoint"⟩

theorem duplicates_record (registry : Registry) (error : SchemaError) (kind : String) :
    (registry.record error).duplicates kind =
      registry.duplicates kind ++ (error.duplicateOf? kind).toList := by
  unfold duplicates record
  rw [List.filterMap_append]
  cases found : error.duplicateOf? kind <;> simp [found]

/-- Unsupported shapes are no duplicates. -/
theorem tables_of_unsupported {before after : Registry} {recorded : List SchemaError}
    (after_eq : after = { before with errors := before.errors ++ recorded })
    (unsupported : ∀ error ∈ recorded, error.isUnsupported = true) :
    after.objectTable = before.objectTable ∧ after.endpointTable = before.endpointTable := by
  have no_duplicates : ∀ kind, recorded.filterMap (·.duplicateOf? kind) = [] := by
    intro kind
    rw [List.filterMap_eq_nil_iff]
    intro error listed
    exact SchemaError.duplicateOf?_of_isUnsupported kind (unsupported error listed)
  subst after_eq
  simp [objectTable, endpointTable, duplicates, no_duplicates]

theorem registerObject_objectTable (registry : Registry) (object : SchemaObject) :
    (registry.registerObject object).objectTable =
      registry.objectTable.enter SchemaObject.name object := by
  unfold registerObject
  by_cases known : object.name ∈ registry.objects.map (·.name)
  · rw [if_pos ((hasObject_iff registry _).mpr known), Table.enter_known SchemaObject.name known,
      objectTable, duplicates_record]
    rfl
  · rw [if_neg (fun found => known ((hasObject_iff registry _).mp found)),
      Table.enter_new SchemaObject.name known]
    rfl

theorem registerObject_endpointTable (registry : Registry) (object : SchemaObject) :
    (registry.registerObject object).endpointTable = registry.endpointTable := by
  unfold registerObject endpointTable
  split
  · rw [duplicates_record]
    simp [record, SchemaError.duplicateOf?]
  · rfl

theorem hasEndpoint_iff (registry : Registry) (name : String) :
    registry.hasEndpoint name = true ↔ name ∈ registry.endpoints.map (·.name) := by
  simp [hasEndpoint]

theorem registerEndpoint_endpointTable (registry : Registry) (endpoint : Endpoint) :
    (registry.registerEndpoint endpoint).endpointTable =
      registry.endpointTable.enter Endpoint.name endpoint := by
  unfold registerEndpoint
  by_cases known : endpoint.name ∈ registry.endpoints.map (·.name)
  · rw [if_pos ((hasEndpoint_iff registry _).mpr known), Table.enter_known Endpoint.name known,
      endpointTable, duplicates_record]
    rfl
  · rw [if_neg (fun found => known ((hasEndpoint_iff registry _).mp found)),
      Table.enter_new Endpoint.name known]
    rfl

theorem registerEndpoint_objectTable (registry : Registry) (endpoint : Endpoint) :
    (registry.registerEndpoint endpoint).objectTable = registry.objectTable := by
  unfold registerEndpoint objectTable
  split
  · rw [duplicates_record]
    simp [record, SchemaError.duplicateOf?]
  · rfl

end Registry

end ApiHandbook
