import ApiHandbook.Proofs.Extraction.Scoping
import ApiHandbook.Proofs.Registry.Resolution

/-!
# Scopes follow the nesting of types

A table of scopes could lead in circles, but one that has been collected from sources cannot: every
scope in it lies in a shorter one. So the search for scopes ends, and each scope on its way is the
one before, cut in front of an underscore. Where no qualified name is declared in two scopes, the
way is out of the types that surround a declaration, whatever underscores their names contain.
-/
namespace ApiHandbook.Extraction
open Schema Source

/-- What any number of sources declare, in order. -/
def declaredTypes (sources : List (List Declaration)) : List Occurrence :=
  sources.flatMap (allOccurrences [])

/-- The symbols and scopes of sources that are collected one after the other. -/
def collectSources (sources : List (List Declaration)) : Registry :=
  sources.foldl (collectAllSymbols none) {}

theorem collectSources_eq_foldl (sources : List (List Declaration)) :
    collectSources sources = (declaredTypes sources).foldl enterType {} := by
  unfold collectSources declaredTypes
  generalize ({} : Registry) = registry
  induction sources generalizing registry with
  | nil => rfl
  | cons source rest ih =>
    have entered := collectAllSymbols_eq_foldl source [] registry
    rw [List.foldl_cons, List.flatMap_cons, List.foldl_append, ih, ← entered]
    rfl

/-! ## Entries of the table -/

theorem qualifiedName_ne_empty {name : String} (nonempty : name ≠ "") (scope : Option String) :
    qualifiedName scope name ≠ "" := by
  unfold qualifiedName
  split
  · exact nonempty
  · split
    · exact nonempty
    · rw [← String.toList_inj.ne]
      simp

theorem length_lt_qualifiedName {name : String} (nonempty : name ≠ "") (scope : String) :
    scope.length < (qualifiedName (some scope) name).length := by
  by_cases global : scope = ""
  · have positive : 0 < name.length := by
      rw [← String.length_toList, List.length_pos_iff, ne_eq, String.toList_eq_nil_iff]
      exact nonempty
    simpa [qualifiedName, global] using positive
  · rw [qualifiedName_some global, String.length_append, String.length_append]
    have underscore : "_".length = 1 := rfl
    omega

theorem lookup_isSome_iff (table : List (String × Option String)) (name : String) :
    (table.lookup name).isSome ↔ ∃ entry, table.find? (·.1 == name) = some entry := by
  induction table with
  | nil => simp
  | cons entry rest ih =>
    by_cases same : entry.1 = name
    · simp [same]
    · have other : (name == entry.1) = false := by simpa using fun equal => same equal.symm
      have passed : (entry.1 == name) = false := by simpa using same
      rw [List.lookup_cons, other, List.find?_cons, passed]
      exact ih

theorem enterType_scopes (registry : Registry) (type : Occurrence) :
    (enterType registry type).scopes =
      (registry.addScope type.name (scopeOf type.around)).scopes := by
  unfold enterType
  dsimp only
  split
  · exact addSymbol_scopes _ _
  · rfl

/-- Every type that has been entered is found in the table. -/
theorem find?_foldl_enterType {types : List Occurrence} {type : Occurrence}
    (listed : type ∈ types) :
    ∃ entry, (types.foldl enterType {}).scopes.find? (·.1 == type.name) = some entry := by
  induction types using List.reverseRecOn with
  | nil => cases listed
  | append_singleton types last ih =>
    rw [List.foldl_append, List.foldl_cons, List.foldl_nil, enterType_scopes, Registry.addScope]
    split
    · rename_i known
      rcases List.mem_append.mp listed with earlier | own
      · exact ih earlier
      · rw [List.mem_singleton.mp own]
        exact (lookup_isSome_iff _ _).mp known
    · rw [List.find?_append]
      rcases List.mem_append.mp listed with earlier | own
      · obtain ⟨entry, found⟩ := ih earlier
        exact ⟨entry, by rw [found]; rfl⟩
      · rw [List.mem_singleton.mp own]
        cases (types.foldl enterType {}).scopes.find? (·.1 == last.name) with
        | some entry => exact ⟨entry, rfl⟩
        | none => exact ⟨(last.name, scopeOf last.around), by simp⟩

/-! ## Chains of declared types -/

/-- A type lies in the outermost scope or in a type that is declared around it. -/
theorem exists_outer {declarations : List Declaration} {around : List Heading} {type : Occurrence}
    (listed : type ∈ allOccurrences around declarations) :
    type.around = around ∨
      ∃ outer ∈ allOccurrences around declarations,
        type.around = outer.around ++ [outer.heading] := by
  induction declarations using Declaration.forest_induction generalizing around with
  | nil => cases listed
  | cons heading children rest inner after =>
    rcases mem_allOccurrences_cons.mp listed with ⟨entered, rfl | below⟩ | later
    · exact .inl rfl
    · right
      rcases inner below with own | ⟨outer, found, around_eq⟩
      · exact ⟨⟨around, heading, children⟩, mem_allOccurrences_cons.mpr (.inl ⟨entered, .inl rfl⟩),
          own⟩
      · exact ⟨outer, mem_allOccurrences_cons.mpr (.inl ⟨entered, .inr found⟩), around_eq⟩
    · rcases after later with own | ⟨outer, found, around_eq⟩
      · exact .inl own
      · exact .inr ⟨outer, mem_allOccurrences_cons.mpr (.inr found), around_eq⟩

section
variable {sources : List (List Declaration)}

theorem exists_declared_outer {type : Occurrence} (listed : type ∈ declaredTypes sources) :
    type.around = [] ∨
      ∃ outer ∈ declaredTypes sources, type.around = outer.around ++ [outer.heading] := by
  obtain ⟨source, member, found⟩ := List.mem_flatMap.mp listed
  rcases exists_outer found with outermost | ⟨outer, declared, around_eq⟩
  · exact .inl outermost
  · exact .inr ⟨outer, List.mem_flatMap.mpr ⟨source, member, declared⟩, around_eq⟩

theorem collectSources_scopes {entry : String × Option String}
    (listed : entry ∈ (collectSources sources).scopes) :
    ∃ type ∈ declaredTypes sources, entry = (type.name, scopeOf type.around) := by
  rw [collectSources_eq_foldl] at listed
  exact mem_foldl_enterType_scopes listed

/-- The scope around a declared name is the one that it is declared in, if there is only one. -/
theorem around_declared
    (apart : ∀ one ∈ declaredTypes sources, ∀ other ∈ declaredTypes sources,
      one.name = other.name → scopeOf one.around = scopeOf other.around)
    {type : Occurrence} (listed : type ∈ declaredTypes sources) :
    Around (collectSources sources).scopes type.name (scopeOf type.around) := by
  obtain ⟨entry, found⟩ := find?_foldl_enterType listed
  rw [← collectSources_eq_foldl] at found
  obtain ⟨first, declared, rfl⟩ := collectSources_scopes (List.mem_of_find?_eq_some found)
  have same : first.name = type.name := by simpa using List.find?_some found
  rw [same, apart first declared type listed same] at found
  exact .declared found

/-- The induction is on the number of types around the declaration. -/
theorem scopeChain_declared (named : ∀ type ∈ declaredTypes sources, type.heading.name ≠ "")
    (apart : ∀ one ∈ declaredTypes sources, ∀ other ∈ declaredTypes sources,
      one.name = other.name → scopeOf one.around = scopeOf other.around)
    {type : Occurrence} (listed : type ∈ declaredTypes sources) :
    ∃ scopes, ScopeChain (collectSources sources).scopes (some type.name) scopes ∧
      scopes.map some ++ [none] =
        (type.around ++ [type.heading]).inits.reverse.map scopeOf := by
  induction size : type.around.length generalizing type with
  | zero =>
    have outermost : type.around = [] := List.length_eq_zero_iff.mp size
    have around := around_declared apart listed
    have nonempty : type.name ≠ "" := qualifiedName_ne_empty (named type listed) _
    rw [outermost] at around
    refine ⟨[type.name], .named nonempty around .absent, ?_⟩
    simp [outermost, scopeOf, Occurrence.name]
  | succ depth ih =>
    rcases exists_declared_outer listed with outermost | ⟨outer, declared, around_eq⟩
    · rw [outermost] at size
      cases size
    · have shorter : outer.around.length = depth := by
        rw [around_eq, List.length_append, List.length_singleton] at size
        omega
      obtain ⟨scopes, rest, scopes_eq⟩ := ih declared shorter
      have around := around_declared apart listed
      have nonempty : type.name ≠ "" := qualifiedName_ne_empty (named type listed) _
      have parent : scopeOf type.around = some outer.name := by rw [around_eq, scopeOf_append]; rfl
      rw [parent] at around
      refine ⟨type.name :: scopes, .named nonempty around rest, ?_⟩
      have inits_eq : (type.around ++ [type.heading]).inits.reverse =
          (type.around ++ [type.heading]) :: type.around.inits.reverse := by
        simp [List.inits_append]
      rw [List.map_cons, List.cons_append, scopes_eq, ← around_eq, inits_eq, List.map_cons,
        scopeOf_append]
      rfl

/-- Behind any number of collected sources, the search from every scope, declared or not, comes to
an end in the global scope, and each scope on the way is the one before, cut in front of an
underscore. If no two types of one qualified name are declared in different scopes, the search from
a declared type goes through the types around it, innermost first. -/
theorem scope_chains_finite_and_lexical
    (named : ∀ type ∈ declaredTypes sources, type.heading.name ≠ "") :
    (∀ scope : String, ∃ scopes,
      ScopeChain (collectSources sources).scopes (some scope) scopes ∧
      (collectSources sources).enclosingScopes (some scope) = scopes.map some ++ [none] ∧
      scopes.IsChain fun inner outer => ∃ part, inner = outer ++ "_" ++ part) ∧
    ((∀ one ∈ declaredTypes sources, ∀ other ∈ declaredTypes sources,
        one.name = other.name → scopeOf one.around = scopeOf other.around) →
      ∀ type ∈ declaredTypes sources,
        (collectSources sources).enclosingScopes (some type.name) =
          (type.around ++ [type.heading]).inits.reverse.map scopeOf) := by
  constructor
  · intro scope
    have outwards : ∀ entry ∈ (collectSources sources).scopes, ∀ parent,
        entry.2 = some parent → parent.length < entry.1.length := by
      intro entry listed parent parent_eq
      obtain ⟨type, declared, rfl⟩ := collectSources_scopes listed
      change scopeOf type.around = some parent at parent_eq
      rw [Occurrence.name, parent_eq]
      exact length_lt_qualifiedName (named type declared) parent
    have cuts : ∀ entry ∈ (collectSources sources).scopes, ∀ parent,
        entry.2 = some parent → parent ≠ "" → ∃ part, entry.1 = parent ++ "_" ++ part := by
      intro entry listed parent parent_eq nonempty
      obtain ⟨type, declared, rfl⟩ := collectSources_scopes listed
      change scopeOf type.around = some parent at parent_eq
      rw [Occurrence.name, parent_eq]
      exact ⟨_, qualifiedName_some nonempty _⟩
    obtain ⟨scopes, chain⟩ := exists_scopeChain outwards (some scope)
    refine ⟨scopes, chain, ?_, chain.isChain_cut cuts⟩
    rw [Registry.enclosingScopes, chain.scopesFrom_eq]
  · intro apart type listed
    obtain ⟨scopes, chain, scopes_eq⟩ := scopeChain_declared named apart listed
    rw [Registry.enclosingScopes, chain.scopesFrom_eq, scopes_eq]

end

/-- Two sources in which underscores also stand inside of names: `Order_Line` is no part of
`Order`, and `Unit_Price` is one step. -/
theorem underscored_types_nested :
    let sources : List (List Declaration) :=
      [[.groupOf "Order_Line" [.groupOf "Unit_Price" []]], [.groupOf "Order" [.groupOf "Item" []]]]
    (collectSources sources).enclosingScopes (some "Order_Line_Unit_Price") =
        [some "Order_Line_Unit_Price", some "Order_Line", none] ∧
      (collectSources sources).enclosingScopes (some "Order_Item") =
        [some "Order_Item", some "Order", none] ∧
      ∃ scopes, ScopeChain (collectSources sources).scopes (some "Order_Line_Unit") scopes := by
  intro sources
  have named : ∀ type ∈ declaredTypes sources, type.heading.name ≠ "" := by decide +kernel
  have apart : ∀ one ∈ declaredTypes sources, ∀ other ∈ declaredTypes sources,
      one.name = other.name → scopeOf one.around = scopeOf other.around := by decide +kernel
  obtain ⟨finite, lexical⟩ := scope_chains_finite_and_lexical named
  obtain ⟨scopes, chain, -⟩ := finite "Order_Line_Unit"
  have nested := lexical apart
  refine ⟨nested ⟨[{ kind := .record, name := "Order_Line" }],
      { kind := .record, name := "Unit_Price" }, []⟩ ?_,
    nested ⟨[{ kind := .record, name := "Order" }], { kind := .record, name := "Item" }, []⟩ ?_,
    scopes, chain⟩
  all_goals simp [sources, declaredTypes, Declaration.groupOf, allOccurrences, occurrences,
    Heading.isType]

end ApiHandbook.Extraction
