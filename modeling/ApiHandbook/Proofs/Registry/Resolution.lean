import ApiHandbook.Proofs.Registry.Matching
import ApiHandbook.Proofs.Registry.ScopeChains

/-!
# What a type name resolves to

Resolution told without the search: which qualified names are asked for, in which order, and what
answers them. Primitive keywords come first, then the first name that anything matches, wrappers
before objects, the name itself before longer ones that end with it. Whether a name without dots
resolves at all does not depend on the scope.
-/
namespace ApiHandbook
open Schema Source Text

/-! ## Matching names -/

/-- A name matches a target that it is or that it ends with behind an underscore. -/
def Matches (target name : String) : Prop :=
  name = target ∨ ∃ front, name = front ++ "_" ++ target

/-- The name that matches a target best: the target itself or, where it is absent, the first of
the longest names that match. -/
inductive BestName (names : List String) (target : String) : String → Prop
  | itself (listed : target ∈ names) : BestName names target target
  | longest {name : String} {before after : List String} (absent : target ∉ names)
      (split : names = before ++ name :: after) (ends : Matches target name)
      (bound : ∀ other ∈ names, Matches target other → other.length ≤ name.length)
      (first : ∀ other ∈ before, Matches target other → other.length < name.length) :
      BestName names target name

theorem endsWithPart_iff {target name : String} :
    endsWithPart target name = true ↔ ∃ front, name = front ++ "_" ++ target := by
  rw [endsWithPart, List.isSuffixOf_iff_suffix]
  constructor
  · rintro ⟨front, joined⟩
    refine ⟨String.ofList front, ?_⟩
    rw [← String.toList_inj]
    simpa using joined.symm
  · rintro ⟨front, rfl⟩
    exact ⟨front.toList, by simp⟩

theorem Matches.trans {scope target name : String}
    (ends : Matches (scope ++ "_" ++ target) name) : Matches target name := by
  right
  rcases ends with rfl | ⟨front, rfl⟩
  · exact ⟨scope, rfl⟩
  · exact ⟨front ++ "_" ++ scope, by simp only [String.append_assoc]⟩

/-- Where the target is absent, the matching names are those that end with it. -/
theorem matches_iff_endsWithPart {names : List String} {target name : String}
    (absent : target ∉ names) (listed : name ∈ names) :
    Matches target name ↔ endsWithPart target name = true := by
  rw [endsWithPart_iff]
  refine or_iff_right ?_
  rintro rfl
  exact absent listed

theorem bestMatch?_eq_none {names : List String} {target : String}
    (none_eq : bestMatch? names target = none) : ∀ name ∈ names, ¬ Matches target name := by
  unfold bestMatch? at none_eq
  split at none_eq
  · cases none_eq
  · rename_i unknown
    have absent : target ∉ names := by simpa using unknown
    have no_ending := List.filter_eq_nil_iff.mp (longest?_none none_eq)
    intro name listed ends
    exact no_ending name listed ((matches_iff_endsWithPart absent listed).mp ends)

theorem bestMatch?_bestName {names : List String} {target name : String}
    (found : bestMatch? names target = some name) : BestName names target name := by
  unfold bestMatch? at found
  split at found
  · rename_i known
    cases found
    exact .itself (by simpa using known)
  · rename_i unknown
    have absent : target ∉ names := by simpa using unknown
    obtain ⟨bound, first⟩ := longest?_some found
    rw [List.find?_filter, List.find?_eq_some_iff_append] at first
    obtain ⟨tested, before, after, split, shorter⟩ := first
    have listed : name ∈ names := by simp [split]
    have tested : endsWithPart target name = true := (by simpa using tested :)
    refine .longest absent split ((matches_iff_endsWithPart absent listed).mpr tested) ?_ ?_
    · intro other other_listed ends
      exact bound other (List.mem_filter.mpr
        ⟨other_listed, (matches_iff_endsWithPart absent other_listed).mp ends⟩)
    · intro other earlier ends
      have other_listed : other ∈ names := by simp [split, earlier]
      have ending := (matches_iff_endsWithPart absent other_listed).mp ends
      simpa [ending] using shorter other earlier

theorem BestName.mem_matches {names : List String} {target name : String}
    (best : BestName names target name) : name ∈ names ∧ Matches target name := by
  cases best with
  | itself listed => exact ⟨listed, .inl rfl⟩
  | longest _ split ends _ _ => exact ⟨by simp [split], ends⟩

/-- Two places of one list are the same, or one lies before the other. -/
theorem eq_or_mem_of_append_cons_eq {α : Type} {x y : α} {before after before' after' : List α}
    (same : before ++ x :: after = before' ++ y :: after') : x = y ∨ x ∈ before' ∨ y ∈ before := by
  rcases List.append_eq_append_iff.mp same with ⟨between, here, rest⟩ | ⟨between, here, rest⟩
  · cases between with
    | nil => exact .inl (List.cons.inj rest).1
    | cons next more => exact .inr (.inl (by simp [here, (List.cons.inj rest).1]))
  · cases between with
    | nil => exact .inl (List.cons.inj rest).1.symm
    | cons next more => exact .inr (.inr (by simp [here, (List.cons.inj rest).1]))

theorem BestName.unique {names : List String} {target one two : String}
    (first : BestName names target one) (second : BestName names target two) : one = two := by
  obtain ⟨one_listed, one_ends⟩ := first.mem_matches
  obtain ⟨two_listed, two_ends⟩ := second.mem_matches
  cases first with
  | itself listed =>
    cases second with
    | itself _ => rfl
    | longest absent _ _ _ _ => exact absurd listed absent
  | longest absent split _ bound earlier =>
    cases second with
    | itself listed => exact absurd listed absent
    | longest _ other_split _ other_bound other_earlier =>
      have below := bound two two_listed two_ends
      have above := other_bound one one_listed one_ends
      -- The earlier of two different names would have to be shorter than the later one.
      rcases eq_or_mem_of_append_cons_eq (split.symm.trans other_split) with same | ahead | ahead
      · exact same
      · exact absurd (other_earlier one ahead one_ends) (by omega)
      · exact absurd (earlier two ahead two_ends) (by omega)

/-! ## What is asked for -/

/-- A qualifier as a scope: its dots turned into underscores. -/
def underscored (qualifier : String) : String :=
  String.ofList (qualifier.toList.map fun c => if c = '.' then '_' else c)

/-- What is looked up for a written name: without dots the name in every scope of the chain and at
last in the global one, with dots only the name inside its qualifier. -/
inductive Asked (table : List (String × Option String)) (typeName : String)
    (scope : Option String) : Lookup → Prop
  | plain {scopes : List String} (undotted : '.' ∉ typeName.toList)
      (chain : ScopeChain table scope scopes) :
      Asked table typeName scope
        ⟨typeName, scope, scopes.map (· ++ "_" ++ typeName) ++ [typeName]⟩
  | dotted {qualifier name : String} (written : typeName = qualifier ++ "." ++ name)
      (last : '.' ∉ name.toList) (nonempty : qualifier ≠ "") :
      Asked table typeName scope
        ⟨name, some (underscored qualifier), [underscored qualifier ++ "_" ++ name]⟩
  | pointed {name : String} (written : typeName = "." ++ name) (last : '.' ∉ name.toList) :
      Asked table typeName scope ⟨name, some "", [name]⟩

theorem qualifiedName_some {scope : String} (nonempty : scope ≠ "") (name : String) :
    qualifiedName (some scope) name = scope ++ "_" ++ name := by
  simp [qualifiedName, nonempty]

theorem underscored_ne_empty {qualifier : String} (nonempty : qualifier ≠ "") :
    underscored qualifier ≠ "" := by
  rw [underscored, ← String.toList_inj.ne] at *
  simpa using nonempty

namespace Registry
variable {registry : Registry} {rules : Rules} {typeName : String} {scope : Option String}

theorem lookup_of_asked {lookup : Lookup}
    (asked : Asked registry.scopes typeName scope lookup) :
    registry.lookup typeName scope = lookup := by
  cases asked with
  | plain undotted chain =>
    rw [Registry.lookup, splitLast?_none undotted]
    dsimp only
    rw [enclosingScopes, chain.scopesFrom_eq, List.map_append, List.map_map]
    congr 2
    apply List.map_congr_left
    intro name listed
    exact qualifiedName_some (chain.nonempty name listed) typeName
  | @dotted qualifier name written last nonempty =>
    have split : splitLast? '.' typeName.toList = some (qualifier.toList, name.toList) :=
      splitLast?_eq_some_iff.mpr ⟨by simp [written], last⟩
    rw [Registry.lookup, split]
    dsimp only
    rw [String.ofList_toList, ← underscored, qualifiedName_some (underscored_ne_empty nonempty)]
  | @pointed name written last =>
    have split : splitLast? '.' typeName.toList = some ([], name.toList) :=
      splitLast?_eq_some_iff.mpr ⟨by simp [written], last⟩
    rw [Registry.lookup, split]
    dsimp only
    rw [String.ofList_toList]
    rfl

theorem asked_lookup (finite : registry.FiniteScopes) (typeName : String)
    (scope : Option String) :
    Asked registry.scopes typeName scope (registry.lookup typeName scope) := by
  have found : ∃ lookup, Asked registry.scopes typeName scope lookup := by
    cases split : splitLast? '.' typeName.toList with
    | none =>
      obtain ⟨scopes, chain⟩ := finite scope
      exact ⟨_, .plain (splitLast?_eq_none_iff.mp split) chain⟩
    | some parts =>
      obtain ⟨written, last⟩ := splitLast?_eq_some_iff.mp split
      have joined : typeName = String.ofList parts.1 ++ "." ++ String.ofList parts.2 := by
        rw [← String.toList_inj]
        simpa using written
      have last : '.' ∉ (String.ofList parts.2).toList := by simpa using last
      by_cases unqualified : String.ofList parts.1 = ""
      · rw [unqualified, String.empty_append] at joined
        exact ⟨_, .pointed joined last⟩
      · exact ⟨_, .dotted joined last unqualified⟩
  obtain ⟨lookup, asked⟩ := found
  rwa [lookup_of_asked asked]

/-! ## What answers -/

/-- A wrapper or an object matches the target. -/
def Answers (registry : Registry) (target : String) : Prop :=
  (∃ wrapper ∈ registry.wrappers, Matches target wrapper.name) ∨
    ∃ symbol ∈ registry.symbols, Matches target symbol

/-- The first of some targets that anything matches. -/
def FirstAnswered (registry : Registry) (targets : List String) (target : String) : Prop :=
  registry.Answers target ∧ ∃ before after, targets = before ++ target :: after ∧
    ∀ earlier ∈ before, ¬ registry.Answers earlier

/-- What a look-up comes to. -/
inductive Answer (rules : Rules) (registry : Registry) (lookup : Lookup)
    (declaration field : Option String) : Except SchemaError ValueType → Prop
  | primitive {type : ValueType} (keyword : rules.primitives.lookup lookup.name = some type) :
      Answer rules registry lookup declaration field (.ok type)
  | wrapper {target : String} {wrapper : Wrapper}
      (free : rules.primitives.lookup lookup.name = none)
      (first : registry.FirstAnswered lookup.targets target)
      (best : BestName (registry.wrappers.map (·.name)) target wrapper.name)
      (registered : registry.wrappers.find? (·.name == wrapper.name) = some wrapper) :
      Answer rules registry lookup declaration field (.ok (.oneOf wrapper.name wrapper.cases))
  | object {target name : String} (free : rules.primitives.lookup lookup.name = none)
      (first : registry.FirstAnswered lookup.targets target)
      (unwrapped : ∀ wrapper ∈ registry.wrappers, ¬ Matches target wrapper.name)
      (best : BestName registry.symbols target name) :
      Answer rules registry lookup declaration field (.ok (.object name))
  | unresolved (free : rules.primitives.lookup lookup.name = none)
      (unanswered : ∀ target ∈ lookup.targets, ¬ registry.Answers target) :
      Answer rules registry lookup declaration field
        (.error (.unresolved lookup.name lookup.scope declaration field))

theorem not_answers_of_match? {target : String} (none_eq : registry.match? target = none) :
    ¬ registry.Answers target := by
  unfold match? at none_eq
  split at none_eq
  · rename_i name best
    obtain ⟨wrapper, listed, rfl⟩ := List.mem_map.mp (bestMatch?_mem best)
    have missing := List.find?_eq_none.mp (Option.map_eq_none_iff.mp none_eq) wrapper listed
    simp at missing
  · rename_i no_wrapper
    have no_symbol := bestMatch?_eq_none (Option.map_eq_none_iff.mp none_eq)
    rintro (⟨wrapper, listed, ends⟩ | ⟨symbol, listed, ends⟩)
    · exact bestMatch?_eq_none no_wrapper wrapper.name (List.mem_map_of_mem listed) ends
    · exact no_symbol symbol listed ends

theorem answer_of_match? {lookup : Lookup} {declaration field : Option String} {target : String}
    {type : ValueType} (free : rules.primitives.lookup lookup.name = none)
    {before after : List String} (split : lookup.targets = before ++ target :: after)
    (earlier : ∀ other ∈ before, registry.match? other = none)
    (found : registry.match? target = some type) :
    Answer rules registry lookup declaration field (.ok type) := by
  have unanswered : ∀ other ∈ before, ¬ registry.Answers other :=
    fun other listed => not_answers_of_match? (earlier other listed)
  unfold match? at found
  split at found
  · rename_i name best
    obtain ⟨wrapper, registered, rfl⟩ := Option.map_eq_some_iff.mp found
    have name_eq : wrapper.name = name := by simpa using List.find?_some registered
    rw [← name_eq] at registered best
    have best := bestMatch?_bestName best
    have listed := List.mem_of_find?_eq_some registered
    have answered : registry.Answers target := .inl ⟨wrapper, listed, best.mem_matches.2⟩
    exact .wrapper free ⟨answered, before, after, split, unanswered⟩ best registered
  · rename_i no_wrapper
    obtain ⟨name, best, rfl⟩ := Option.map_eq_some_iff.mp found
    have best := bestMatch?_bestName best
    refine .object free ⟨.inr ⟨name, best.mem_matches⟩, before, after, split, unanswered⟩ ?_ best
    intro wrapper listed
    exact bestMatch?_eq_none no_wrapper wrapper.name (List.mem_map_of_mem listed)

/-- Resolution answers what is looked up. -/
theorem resolve_answer (registry : Registry) (rules : Rules) (typeName : String)
    (scope declaration field : Option String) :
    Answer rules registry (registry.lookup typeName scope) declaration field
      (registry.resolve rules typeName scope declaration field) := by
  rw [resolve]
  generalize registry.lookup typeName scope = lookup
  cases keyword : rules.primitives.lookup lookup.name with
  | some type =>
    rw [resolve?, keyword]
    exact .primitive keyword
  | none =>
    rw [resolve?, keyword]
    dsimp only
    cases found : lookup.targets.findSome? registry.match? with
    | some type =>
      obtain ⟨before, target, after, split, here, earlier⟩ := List.findSome?_eq_some_iff.mp found
      exact answer_of_match? keyword split earlier here
    | none =>
      have unmatched := List.findSome?_eq_none_iff.mp found
      exact .unresolved keyword fun target listed => not_answers_of_match? (unmatched target listed)

theorem FirstAnswered.unique {targets : List String} {one two : String}
    (first : registry.FirstAnswered targets one) (second : registry.FirstAnswered targets two) :
    one = two := by
  obtain ⟨one_answered, before, after, split, earlier⟩ := first
  obtain ⟨two_answered, other_before, other_after, other_split, other_earlier⟩ := second
  rcases eq_or_mem_of_append_cons_eq (split.symm.trans other_split) with same | ahead | ahead
  · exact same
  · exact absurd one_answered (other_earlier one ahead)
  · exact absurd two_answered (earlier two ahead)

theorem FirstAnswered.mem {targets : List String} {target : String}
    (first : registry.FirstAnswered targets target) : target ∈ targets := by
  obtain ⟨_, before, after, split, _⟩ := first
  simp [split]

theorem exists_wrapper_of_bestName {target name : String}
    (best : BestName (registry.wrappers.map (·.name)) target name) :
    ∃ wrapper ∈ registry.wrappers, Matches target wrapper.name := by
  obtain ⟨listed, ends⟩ := best.mem_matches
  obtain ⟨wrapper, member, rfl⟩ := List.mem_map.mp listed
  exact ⟨wrapper, member, ends⟩

/-- A look-up has one answer. -/
theorem Answer.unique {lookup : Lookup} {declaration field : Option String}
    {one two : Except SchemaError ValueType}
    (first : Answer rules registry lookup declaration field one)
    (second : Answer rules registry lookup declaration field two) : one = two := by
  cases first with
  | primitive keyword =>
    cases second with
    | primitive also =>
      rw [keyword] at also
      cases also
      rfl
    | wrapper free _ _ _ => rw [keyword] at free; cases free
    | object free _ _ _ => rw [keyword] at free; cases free
    | unresolved free _ => rw [keyword] at free; cases free
  | wrapper free first best registered =>
    cases second with
    | primitive keyword => rw [keyword] at free; cases free
    | wrapper _ other_first other_best other_registered =>
      rw [first.unique other_first] at best
      rw [best.unique other_best, other_registered] at registered
      cases registered
      rfl
    | object _ other_first unwrapped _ =>
      rw [first.unique other_first] at best
      obtain ⟨found, listed, ends⟩ := exists_wrapper_of_bestName best
      exact absurd ends (unwrapped found listed)
    | unresolved _ unanswered => exact absurd first.1 (unanswered _ first.mem)
  | object free first unwrapped best =>
    cases second with
    | primitive keyword => rw [keyword] at free; cases free
    | wrapper _ other_first other_best _ =>
      rw [first.unique other_first] at unwrapped
      obtain ⟨found, listed, ends⟩ := exists_wrapper_of_bestName other_best
      exact absurd ends (unwrapped found listed)
    | object _ other_first _ other_best =>
      rw [first.unique other_first] at best
      rw [best.unique other_best]
    | unresolved _ unanswered => exact absurd first.1 (unanswered _ first.mem)
  | unresolved free unanswered =>
    cases second with
    | primitive keyword => rw [keyword] at free; cases free
    | wrapper _ first _ _ => exact absurd first.1 (unanswered _ first.mem)
    | object _ first _ _ => exact absurd first.1 (unanswered _ first.mem)
    | unresolved _ _ => rfl

/-! ## The whole resolution -/

theorem resolve_eq_iff (finite : registry.FiniteScopes) {declaration field : Option String}
    {result : Except SchemaError ValueType} :
    registry.resolve rules typeName scope declaration field = result ↔
      ∃ lookup, Asked registry.scopes typeName scope lookup ∧
        Answer rules registry lookup declaration field result := by
  have answer := registry.resolve_answer rules typeName scope declaration field
  constructor
  · rintro rfl
    exact ⟨_, asked_lookup finite typeName scope, answer⟩
  · rintro ⟨lookup, asked, other⟩
    rw [lookup_of_asked asked] at answer
    exact answer.unique other

/-- What answers a name in a scope answers it in the global one too. -/
theorem Answers.unscoped {scope target : String}
    (answered : registry.Answers (scope ++ "_" ++ target)) : registry.Answers target := by
  rcases answered with ⟨wrapper, listed, ends⟩ | ⟨symbol, listed, ends⟩
  · exact .inl ⟨wrapper, listed, ends.trans⟩
  · exact .inr ⟨symbol, listed, ends.trans⟩

/-- A name without dots resolves if it is a keyword or anything matches it, wherever it stands. -/
theorem resolves_undotted_iff (finite : registry.FiniteScopes) {name : String}
    (undotted : '.' ∉ name.toList) (scope declaration field : Option String) :
    (∃ type, registry.resolve rules name scope declaration field = .ok type) ↔
      (∃ type, rules.primitives.lookup name = some type) ∨ registry.Answers name := by
  obtain ⟨scopes, chain⟩ := finite scope
  have answer := registry.resolve_answer rules name scope declaration field
  rw [lookup_of_asked (.plain undotted chain)] at answer
  have answered_from : ∀ target ∈ scopes.map (· ++ "_" ++ name) ++ [name],
      registry.Answers target → registry.Answers name := by
    intro target listed answered
    rcases List.mem_append.mp listed with inside | global
    · obtain ⟨outer, _, rfl⟩ := List.mem_map.mp inside
      exact answered.unscoped
    · rwa [List.mem_singleton.mp global] at answered
  constructor
  · rintro ⟨type, resolved⟩
    rw [resolved] at answer
    cases answer with
    | primitive keyword => exact .inl ⟨type, keyword⟩
    | wrapper _ first _ _ => exact .inr (answered_from _ first.mem first.1)
    | object _ first _ _ => exact .inr (answered_from _ first.mem first.1)
  · intro known
    cases result : registry.resolve rules name scope declaration field with
    | ok type => exact ⟨type, rfl⟩
    | error error =>
      rw [result] at answer
      cases answer with
      | unresolved free unanswered =>
        rcases known with ⟨type, keyword⟩ | answered
        · rw [free] at keyword
          cases keyword
        · exact absurd answered (unanswered name (by simp))

/-- In a registry whose scopes lie in finitely many others, a written name resolves to what the
look-up asked for it is answered with, and whether a name without dots resolves at all is the same
in every scope. -/
theorem resolve_eq_iff_answer (registry : Registry) (rules : Rules)
    (finite : registry.FiniteScopes) :
    (∀ (typeName : String) (scope declaration field : Option String)
        (result : Except SchemaError ValueType),
      registry.resolve rules typeName scope declaration field = result ↔
        ∃ lookup, Asked registry.scopes typeName scope lookup ∧
          Answer rules registry lookup declaration field result) ∧
    ∀ name : String, '.' ∉ name.toList → ∀ scope other declaration field : Option String,
      (∃ type, registry.resolve rules name scope declaration field = .ok type) ↔
        ∃ type, registry.resolve rules name other declaration field = .ok type := by
  refine ⟨fun _ _ _ _ _ => resolve_eq_iff finite, ?_⟩
  intro name undotted scope other declaration field
  rw [resolves_undotted_iff finite undotted, resolves_undotted_iff finite undotted]

/-- A shop with a scope of its own, and items elsewhere with longer names. -/
def shopRegistry : Registry :=
  { ({} : Registry) with
    symbols := ["Depot_Parts_Item", "Shop_Item"], scopes := [("Shop", none)] }

theorem shopRegistry_resolves :
    shopRegistry.resolve {} "Item" (some "Shop") none none = .ok (.object "Shop_Item") ∧
      ∃ type, shopRegistry.resolve {} "Item" none none none = .ok type := by
  have finite : shopRegistry.FiniteScopes := exists_scopeChain (by simp [shopRegistry])
  obtain ⟨spec, everywhere⟩ := resolve_eq_iff_answer shopRegistry {} finite
  have chain : ScopeChain shopRegistry.scopes (some "Shop") ["Shop"] :=
    .named (by decide) (.declared rfl) .absent
  have inside : shopRegistry.resolve {} "Item" (some "Shop") none none =
      .ok (.object "Shop_Item") := by
    refine (spec _ _ _ _ _).mpr ⟨_, .plain (by decide) chain, .object rfl ?_ ?_ (.itself ?_)⟩
    · exact ⟨.inr ⟨"Shop_Item", by decide, .inl rfl⟩, [], ["Item"], rfl, by simp⟩
    · simp [shopRegistry]
    · decide
  exact ⟨inside, (everywhere "Item" (by decide) (some "Shop") none none none).mp ⟨_, inside⟩⟩

end Registry

end ApiHandbook
