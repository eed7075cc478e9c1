import ApiHandbook.Settings.Basic
import ApiHandbook.Proofs.Registry.References

/-!
# Wrappers inside types

A type holds the wrappers it chooses between, not their names. What a type name resolves to holds
no wrapper but registered ones and those inside them, unless a primitive keyword brings it in;
the keywords that can be set bring in nothing.
-/
namespace ApiHandbook
open Schema Source

mutual

/-- The wrappers in a type, at any depth. -/
def Schema.ValueType.wrappers : ValueType → List Wrapper
  | .array item => item.wrappers
  | .oneOf name cases => ⟨name, cases⟩ :: Schema.caseWrappers cases
  | _ => []

def Schema.caseWrappers : List (String × ValueType) → List Wrapper
  | [] => []
  | (_, type) :: rest => type.wrappers ++ Schema.caseWrappers rest

end

theorem mem_caseWrappers {wrapper : Wrapper} {cases : List (String × ValueType)} :
    wrapper ∈ caseWrappers cases ↔ ∃ entry ∈ cases, wrapper ∈ entry.2.wrappers := by
  induction cases with
  | nil => simp [caseWrappers]
  | cons entry rest ih =>
    rw [caseWrappers, List.mem_append, ih]
    simp

/-- Keywords that stand for texts, numbers and truth values. -/
def Rules.IsPlain (rules : Rules) : Prop :=
  ∀ entry ∈ rules.primitives, entry.2 = .number ∨ entry.2 = .string ∨ entry.2 = .boolean

theorem Rules.IsPlain.references {rules : Rules} (plain : rules.IsPlain) :
    rules.references = [] := by
  rw [Rules.references, List.flatMap_eq_nil_iff]
  intro entry listed
  rcases plain entry listed with type | type | type <;> rw [type] <;> rfl

theorem Rules.IsPlain.wrappers {rules : Rules} (plain : rules.IsPlain) {keyword : String}
    {type : ValueType} (found : rules.primitives.lookup keyword = some type) :
    type.wrappers = [] := by
  obtain ⟨before, after, entries, _⟩ := List.lookup_eq_some_iff.mp found
  rcases plain (keyword, type) (by simp [entries]) with rfl | rfl | rfl <;> rfl

theorem Settings.mem_setKeyword {table : List (String × ValueType)} {keyword : String}
    {type : ValueType} {entry : String × ValueType} (listed : entry ∈ setKeyword table keyword type) :
    entry ∈ table ∨ entry = (keyword, type) := by
  induction table with
  | nil => exact .inr (List.mem_singleton.mp listed)
  | cons first rest ih =>
    rw [setKeyword] at listed
    split at listed
    · rcases List.mem_cons.mp listed with rfl | later
      · exact .inr rfl
      · exact .inl (List.mem_cons_of_mem _ later)
    · rcases List.mem_cons.mp listed with rfl | later
      · exact .inl List.mem_cons_self
      · rcases ih later with old | new
        · exact .inl (List.mem_cons_of_mem _ old)
        · exact .inr new

theorem Settings.mem_foldl_setKeyword {entries table : List (String × ValueType)}
    {entry : String × ValueType}
    (listed : entry ∈ entries.foldl (fun table (keyword, type) => setKeyword table keyword type)
      table) : entry ∈ table ∨ entry ∈ entries := by
  induction entries generalizing table with
  | nil => exact .inl listed
  | cons first rest ih =>
    rcases ih listed with set | later
    · rcases mem_setKeyword set with old | rfl
      · exact .inl old
      · exact .inr List.mem_cons_self
    · exact .inr (List.mem_cons_of_mem _ later)

theorem Settings.rules_isPlain (settings : Settings) : settings.rules.IsPlain := by
  intro entry listed
  rcases mem_foldl_setKeyword listed with old | given
  · cases old
  · simp only [List.mem_append, List.mem_map] at given
    rcases given with (⟨keyword, _, rfl⟩ | ⟨keyword, _, rfl⟩) | ⟨keyword, _, rfl⟩ <;> simp

namespace Registry

theorem match?_wrappers {registry : Registry} {target : String} {type : ValueType}
    {wrapper : Wrapper} (found : registry.match? target = some type)
    (embedded : wrapper ∈ type.wrappers) :
    ∃ outer ∈ registry.wrappers, wrapper = outer ∨ wrapper ∈ caseWrappers outer.cases := by
  unfold match? at found
  split at found
  · obtain ⟨outer, outer_eq, rfl⟩ := Option.map_eq_some_iff.mp found
    rw [Wrapper.valueType, ValueType.wrappers] at embedded
    exact ⟨outer, List.mem_of_find?_eq_some outer_eq, List.mem_cons.mp embedded⟩
  · obtain ⟨symbol, _, rfl⟩ := Option.map_eq_some_iff.mp found
    cases embedded

theorem resolveShape_wrappers {registry : Registry} {rules : Rules} (plain : rules.IsPlain)
    {shape : TypeShape} {scope : Option String} {declaration : String} {field : Option String}
    {type : ValueType} {required : Bool} {wrapper : Wrapper}
    (resolved : registry.resolveShape rules shape scope declaration field = .ok (type, required))
    (embedded : wrapper ∈ type.wrappers) :
    ∃ outer ∈ registry.wrappers, wrapper = outer ∨ wrapper ∈ caseWrappers outer.cases := by
  obtain ⟨name, found, _, found_eq, type_eq⟩ := resolveShape_ok resolved
  have same : wrapper ∈ found.wrappers := by
    rw [type_eq] at embedded
    split at embedded
    · rw [ValueType.wrappers] at embedded
      exact embedded
    · exact embedded
  unfold resolve? at found_eq
  split at found_eq
  · rename_i primitive primitive_eq
    cases found_eq
    rw [plain.wrappers primitive_eq] at same
    cases same
  · obtain ⟨target, _, matched⟩ := List.exists_of_findSome?_eq_some found_eq
    exact match?_wrappers matched same

end Registry

end ApiHandbook
