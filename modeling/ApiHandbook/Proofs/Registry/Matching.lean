import Mathlib.Data.List.Find
import ApiHandbook.Proofs.Registry.Scopes
import ApiHandbook.Proofs.Registry.Tables

/-!
# The object that a type name means

In a scope a name stands for the object declared there, or else for the one of the longest name
whose path ends with it. The innermost scope counts in which it stands for any. This is lexical
scoping as long as no path elsewhere ends like one that is looked for.
-/
namespace ApiHandbook
open Schema Source

/-! ## The best match among symbols -/

theorem longest?_none {names : List String} (none_eq : longest? names = none) : names = [] := by
  cases names with
  | nil => rfl
  | cons first rest =>
    rw [longest?] at none_eq
    split at none_eq
    · cases none_eq
    · split at none_eq <;> cases none_eq

theorem longest?_some {names : List String} {name : String} (found : longest? names = some name) :
    (∀ other ∈ names, other.length ≤ name.length) ∧
      names.find? (fun other => decide (name.length ≤ other.length)) = some name := by
  fun_induction longest? names generalizing name with
  | case1 => cases found
  | case2 first rest none_eq _ =>
    cases found
    rw [longest?_none none_eq]
    simp
  | case3 first rest other other_eq longer ih =>
    cases found
    obtain ⟨bound, here⟩ := ih other_eq
    have shorter : ¬ other.length ≤ first.length := by omega
    constructor
    · intro next listed
      rcases List.mem_cons.mp listed with rfl | later
      · omega
      · exact bound next later
    · rw [List.find?_cons_of_neg (by simpa using shorter)]
      exact here
  | case4 first rest other other_eq shorter ih =>
    cases found
    obtain ⟨bound, _⟩ := ih other_eq
    constructor
    · intro next listed
      rcases List.mem_cons.mp listed with rfl | later
      · exact Nat.le_refl _
      · exact (bound next later).trans (Nat.le_of_not_gt shorter)
    · exact List.find?_cons_of_pos (by simp)

/-- Among names without their repetitions the first of a kind stays the first. -/
theorem find?_eraseDups (names : List String) (test : String → Bool) :
    names.eraseDups.find? test = names.find? test := by
  induction names using List.reverseRecOn with
  | nil => rfl
  | append_singleton names name ih =>
    rw [eraseDups_append_singleton, List.find?_append, List.find?_append, ih]
    by_cases known : name ∈ names
    · rw [if_pos known, List.find?_nil, Option.or_none]
      cases found : names.find? test with
      | some other => rfl
      | none =>
        have fails := List.find?_eq_none.mp found name known
        rw [List.find?_cons_of_neg fails]
        rfl
    · rw [if_neg known]

/-- The object that a path stands for among some: the one declared there or, where there is none,
the first of those with the longest name whose paths end with it. -/
inductive StandsFor (objects : List Occurrence) (target : List String) (object : Occurrence) :
    Prop where
  | declared (listed : object ∈ objects) (here : object.path = target)
  | ending (absent : ∀ other ∈ objects, other.path ≠ target)
      (longest : ∀ other ∈ objects, target <:+ other.path → other.name.length ≤ object.name.length)
      (first : objects.find? (fun other =>
        target.isSuffixOf other.path && decide (object.name.length ≤ other.name.length)) =
          some object)

theorem StandsFor.mem_suffix {objects : List Occurrence} {target : List String}
    {object : Occurrence} (meant : StandsFor objects target object) :
    object ∈ objects ∧ target <:+ object.path := by
  cases meant with
  | declared listed here => exact ⟨listed, here ▸ List.suffix_rfl⟩
  | ending absent longest first =>
    have ends := List.find?_some first
    rw [Bool.and_eq_true, List.isSuffixOf_iff_suffix] at ends
    exact ⟨List.mem_of_find?_eq_some first, ends.1⟩

theorem StandsFor.path_unique {objects : List Occurrence} {target : List String}
    {one two : Occurrence} (meant : StandsFor objects target one)
    (also : StandsFor objects target two) : one.path = two.path := by
  cases meant with
  | declared listed here =>
    cases also with
    | declared _ there => rw [here, there]
    | ending absent _ _ => exact absurd here (absent one listed)
  | ending absent longest first =>
    obtain ⟨_, ends⟩ := (StandsFor.ending absent longest first).mem_suffix
    obtain ⟨two_listed, two_ends⟩ := also.mem_suffix
    cases also with
    | declared listed there => exact absurd there (absent two listed)
    | ending _ longest_two first_two =>
      have same_length : one.name.length = two.name.length :=
        Nat.le_antisymm (longest_two one (List.mem_of_find?_eq_some first) ends)
          (longest two two_listed two_ends)
      rw [same_length, first_two] at first
      rw [Option.some.inj first]

/-- Objects whose names are their paths. -/
def ArePaths (objects : List Occurrence) : Prop :=
  ∀ object ∈ objects, IsPlainPath object.path ∧ object.name = pathName object.path

section
variable {objects : List Occurrence} {symbols : List String} {target : List String}

theorem ArePaths.mem_symbols_iff (paths : ArePaths objects)
    (symbols_eq : symbols = (objects.map (·.name)).eraseDups) (plain : IsPlainPath target) :
    pathName target ∈ symbols ↔ ∃ object ∈ objects, object.path = target := by
  rw [symbols_eq, List.mem_eraseDups, List.mem_map]
  constructor
  · rintro ⟨object, listed, name_eq⟩
    obtain ⟨object_plain, own⟩ := paths object listed
    exact ⟨object, listed, object_plain.pathName_inj plain (own.symm.trans name_eq)⟩
  · rintro ⟨object, listed, rfl⟩
    exact ⟨object, listed, (paths object listed).2⟩

theorem ArePaths.absent_of_not_contains (paths : ArePaths objects)
    (symbols_eq : symbols = (objects.map (·.name)).eraseDups) (plain : IsPlainPath target)
    (unknown : ¬ symbols.contains (pathName target) = true) :
    ∀ other ∈ objects, other.path ≠ target := by
  intro other listed here
  apply unknown
  rw [List.contains_iff_mem]
  exact (paths.mem_symbols_iff symbols_eq plain).mpr ⟨other, listed, here⟩

theorem ArePaths.endsWithPart_iff (paths : ArePaths objects) (plain : IsPlainPath target)
    (absent : ∀ other ∈ objects, other.path ≠ target) {object : Occurrence}
    (listed : object ∈ objects) :
    endsWithPart (pathName target) object.name = true ↔ target <:+ object.path := by
  obtain ⟨object_plain, own⟩ := paths object listed
  rw [own, plain.endsWithPart_iff object_plain]
  exact and_iff_left (absent object listed)

theorem bestMatch?_standsFor (paths : ArePaths objects)
    (symbols_eq : symbols = (objects.map (·.name)).eraseDups) (plain : IsPlainPath target)
    {name : String} (found : bestMatch? symbols (pathName target) = some name) :
    ∃ object, StandsFor objects target object ∧ name = object.name := by
  unfold bestMatch? at found
  split at found
  · rename_i known
    cases found
    obtain ⟨object, listed, here⟩ :=
      (paths.mem_symbols_iff symbols_eq plain).mp (List.contains_iff_mem.mp known)
    exact ⟨object, .declared listed here, by rw [(paths object listed).2, here]⟩
  · rename_i unknown
    have absent := paths.absent_of_not_contains symbols_eq plain unknown
    obtain ⟨bound, first⟩ := longest?_some found
    rw [List.find?_filter, symbols_eq, find?_eraseDups, List.find?_map] at first
    obtain ⟨object, first, rfl⟩ := Option.map_eq_some_iff.mp first
    refine ⟨object, .ending absent ?_ ?_, rfl⟩
    · intro other listed ends
      apply bound
      rw [List.mem_filter, symbols_eq, List.mem_eraseDups]
      exact ⟨List.mem_map_of_mem listed, (paths.endsWithPart_iff plain absent listed).mpr ends⟩
    · rw [← first]
      apply List.find?_congr
      intro other listed
      rw [Function.comp, ← Bool.coe_iff_coe, Bool.and_eq_true, List.isSuffixOf_iff_suffix,
        ← paths.endsWithPart_iff plain absent listed]
      simp

theorem bestMatch?_none (paths : ArePaths objects)
    (symbols_eq : symbols = (objects.map (·.name)).eraseDups) (plain : IsPlainPath target)
    (none_eq : bestMatch? symbols (pathName target) = none) :
    ∀ other ∈ objects, ¬ target <:+ other.path := by
  unfold bestMatch? at none_eq
  split at none_eq
  · cases none_eq
  · rename_i unknown
    have absent := paths.absent_of_not_contains symbols_eq plain unknown
    intro other listed ends
    have no_ending := List.filter_eq_nil_iff.mp (longest?_none none_eq) other.name
    apply no_ending
    · rw [symbols_eq, List.mem_eraseDups]
      exact List.mem_map_of_mem listed
    · exact (paths.endsWithPart_iff plain absent listed).mpr ends

end

/-! ## The innermost scope -/

/-- The object that parts mean at a place: the innermost scope counts in which they stand for
one. -/
def Denotes (objects : List Occurrence) (place parts : List String) (object : Occurrence) : Prop :=
  ∃ scope ∈ lookupScopes place parts, StandsFor objects (scope ++ parts) object ∧
    ∀ closer ∈ lookupScopes place parts, scope.length < closer.length →
      ∀ other ∈ objects, ¬ (closer ++ parts) <:+ other.path

theorem Denotes.mem {objects : List Occurrence} {place parts : List String} {object : Occurrence}
    (meant : Denotes objects place parts object) : object ∈ objects := by
  obtain ⟨_, _, stands, _⟩ := meant
  exact stands.mem_suffix.1

/-- Lexical scoping: the object declared at the parts in the innermost scope that has one there. -/
def LexicallyNames (objects : List Occurrence) (place parts : List String)
    (object : Occurrence) : Prop :=
  object ∈ objects ∧ ∃ scope, scope <+: place ∧ object.path = scope ++ parts ∧
    ∀ closer, closer <+: place → scope.length < closer.length →
      ∀ other ∈ objects, other.path ≠ closer ++ parts

/-- No other object comes first: for a single name none whose path ends with it in a closer scope,
for a dotted one none that it stands for as it is written. -/
def Undisputed (objects : List Occurrence) (place : List String) (object : Occurrence) :
    List String → Prop
  | [name] => ∀ closer, closer <+: place → object.path.length ≤ closer.length →
      ∀ other ∈ objects, ¬ (closer ++ [name]) <:+ other.path
  | parts => ∃ meant, StandsFor objects parts meant ∧ meant.path = object.path

theorem pairwise_inits_reverse (path : List String) :
    path.inits.reverse.Pairwise (fun inner outer => outer.length < inner.length) := by
  induction path using List.reverseRecOn with
  | nil => simp
  | append_singleton path name ih =>
    rw [inits_reverse_append, List.pairwise_cons]
    refine ⟨?_, ih⟩
    intro outer listed
    have shorter := ((List.mem_inits outer path).mp (List.mem_reverse.mp listed)).length_le
    rw [List.length_append, List.length_singleton]
    omega

/-- Scopes come innermost first. -/
theorem pairwise_lookupScopes (place parts : List String) :
    (lookupScopes place parts).Pairwise (fun inner outer => outer.length < inner.length) := by
  unfold lookupScopes
  split
  · exact pairwise_inits_reverse place
  · exact List.pairwise_singleton _ _

theorem mem_lookupScopes_singleton {place scope : List String} {name : String} :
    scope ∈ lookupScopes place [name] ↔ scope <+: place := by
  rw [lookupScopes, List.mem_reverse, List.mem_inits]

namespace Registry

theorem resolve?_denotes {registry : Registry} {rules : Rules} {objects : List Occurrence}
    (paths : ArePaths objects) (symbols_eq : registry.symbols = (objects.map (·.name)).eraseDups)
    (scopes : IsPathTable registry.scopes) (no_wrappers : registry.wrappers = [])
    {place parts : List String} {last : String} (place_plain : IsPlainPath place)
    (plain : IsPlainPath (parts ++ [last])) (no_keyword : rules.primitives.lookup last = none)
    {found : ValueType}
    (resolved : registry.resolve? rules
      (registry.lookup (dottedName (parts ++ [last])) (some (pathName place))) = some found) :
    ∃ object, Denotes objects place (parts ++ [last]) object ∧ found = .object object.name := by
  obtain ⟨name_eq, targets_eq⟩ := lookup_dottedName scopes place_plain plain
  have matched : ∀ target, registry.match? target =
      (bestMatch? registry.symbols target).map .object := by
    intro target
    rw [match?, no_wrappers]
    rfl
  have inside : ∀ scope ∈ lookupScopes place (parts ++ [last]),
      IsPlainPath (scope ++ (parts ++ [last])) := by
    intro scope listed
    refine ⟨by simp, ?_⟩
    intro part member
    rcases List.mem_append.mp member with outer | own
    · exact place_plain.plain part (lookupScopes_subset listed outer)
    · exact plain.plain part own
  rw [resolve?, name_eq, no_keyword, targets_eq, List.findSome?_map] at resolved
  obtain ⟨inner, scope, outer, scopes_eq, here, before⟩ := List.findSome?_eq_some_iff.mp resolved
  have scope_listed : scope ∈ lookupScopes place (parts ++ [last]) := by simp [scopes_eq]
  rw [Function.comp, matched] at here
  obtain ⟨name, best, rfl⟩ := Option.map_eq_some_iff.mp here
  obtain ⟨object, meant, rfl⟩ :=
    bestMatch?_standsFor paths symbols_eq (inside scope scope_listed) best
  refine ⟨object, ⟨scope, scope_listed, meant, ?_⟩, rfl⟩
  intro closer listed longer
  have closer_inner : closer ∈ inner := by
    have ordered := pairwise_lookupScopes place (parts ++ [last])
    rw [scopes_eq, List.pairwise_append, List.pairwise_cons] at ordered
    rw [scopes_eq] at listed
    rcases List.mem_append.mp listed with first | rest
    · exact first
    · rcases List.mem_cons.mp rest with rfl | further
      · omega
      · have := ordered.2.1.1 closer further
        omega
  have none_eq := before closer closer_inner
  rw [Function.comp, matched, Option.map_eq_none_iff] at none_eq
  exact bestMatch?_none paths symbols_eq (inside closer listed) none_eq

end Registry

/-! ## Lexical scoping -/

/-- Names mean what lexical scoping says exactly where no path elsewhere ends like one that is
looked for before. -/
theorem Denotes.path_eq_iff {objects : List Occurrence} {place parts : List String}
    {denoted lexical : Occurrence} (meant : Denotes objects place parts denoted)
    (named : LexicallyNames objects place parts lexical) :
    denoted.path = lexical.path ↔ Undisputed objects place lexical parts := by
  obtain ⟨scope, listed, stands, closer_free⟩ := meant
  obtain ⟨lexical_listed, around, around_place, lexical_path, -⟩ := named
  unfold Undisputed
  split
  · rename_i name
    have scope_place := mem_lookupScopes_singleton.mp listed
    obtain ⟨denoted_listed, denoted_ends⟩ := stands.mem_suffix
    have around_length : lexical.path.length = around.length + 1 := by simp [lexical_path]
    -- The declaring scope is looked at, so the name is found there or further inside.
    have inside : around.length ≤ scope.length := by
      by_contra further
      exact closer_free around (mem_lookupScopes_singleton.mpr around_place) (by omega) lexical
        lexical_listed (lexical_path ▸ List.suffix_rfl)
    constructor
    · intro same closer closer_place closer_length
      have deep := denoted_ends.length_le
      rw [List.length_append, List.length_singleton, same] at deep
      exact closer_free closer (mem_lookupScopes_singleton.mpr closer_place) (by omega)
    · intro undisputed
      have equal : scope.length = around.length := by
        by_contra different
        exact undisputed scope scope_place (by omega) denoted denoted_listed denoted_ends
      have scope_eq : scope = around :=
        (List.prefix_of_prefix_length_le scope_place around_place equal.le).eq_of_length equal
      have declared : StandsFor objects (scope ++ [name]) lexical :=
        .declared lexical_listed (scope_eq ▸ lexical_path)
      exact stands.path_unique declared
  · rename_i dotted
    have global : scope = [] := by
      unfold lookupScopes at listed
      split at listed
      · exact absurd rfl (dotted _)
      · exact List.mem_singleton.mp listed
    rw [global, List.nil_append] at stands
    constructor
    · intro same
      exact ⟨denoted, stands, same⟩
    · rintro ⟨meant, meant_stands, same⟩
      exact (stands.path_unique meant_stands).trans same

end ApiHandbook
