import Mathlib.Data.List.Infix
import Mathlib.Data.List.TakeWhile
import ApiHandbook.Proofs.Registry.References
import ApiHandbook.Proofs.Source.Paths

/-!
# Looking type names up by path

In a source with plain names, resolution can be told without qualified names: a name of one part
is looked up in all scopes around the place, a dotted one only as it is written, whatever the
place.
-/
namespace ApiHandbook

namespace Text

theorem splitLast?_none {mark : Char} {text : List Char} (absent : mark ∉ text) :
    splitLast? mark text = none := by
  have gone : text.reverse.dropWhile (· ≠ mark) = [] := by
    rw [List.dropWhile_eq_nil_iff]
    intro c listed
    have different : c ≠ mark := by
      rintro rfl
      exact absent (List.mem_reverse.mp listed)
    simpa using different
  rw [splitLast?, gone]

theorem splitLast?_append {mark : Char} (before : List Char) {after : List Char}
    (absent : mark ∉ after) : splitLast? mark (before ++ mark :: after) = some (before, after) := by
  have other : ∀ c ∈ after.reverse, decide (c ≠ mark) = true := by
    intro c listed
    have different : c ≠ mark := by
      rintro rfl
      exact absent (List.mem_reverse.mp listed)
    simpa using different
  have reversed : (before ++ mark :: after).reverse = after.reverse ++ mark :: before.reverse := by
    simp
  rw [splitLast?, reversed, List.dropWhile_append_of_pos other, List.takeWhile_append_of_pos other]
  simp

end Text

open Schema Source Text

/-! ## Scopes -/

/-- A table in which each scope has the name and the surrounding scope of a plain path. -/
def IsPathTable (table : List (String × Option String)) : Prop :=
  ∀ entry ∈ table, ∃ path, IsPlainPath path ∧ entry = (pathName path, pathScope path.dropLast)

/-- Going outwards drops the last part of the path, whether the scope is in the table or is cut
at its last underscore. -/
theorem scopesFrom_step {table : List (String × Option String)} (paths : IsPathTable table)
    {path : List String} {name : String} (plain : IsPlainPath (path ++ [name])) :
    ∃ rest, IsPathTable rest ∧ scopesFrom table (pathName (path ++ [name])) =
      pathName (path ++ [name]) :: if path = [] then [] else scopesFrom rest (pathName path) := by
  rw [scopesFrom, if_neg plain.pathName_ne_empty]
  have erased : IsPathTable (table.eraseP (·.1 == pathName (path ++ [name]))) :=
    fun entry listed => paths entry (List.mem_of_mem_eraseP listed)
  have parent : ∀ entry, table.find? (·.1 == pathName (path ++ [name])) = some entry →
      entry.2 = pathScope path := by
    intro entry found
    obtain ⟨other, other_plain, rfl⟩ := paths entry (List.mem_of_find?_eq_some found)
    have same := other_plain.pathName_inj plain (by simpa using List.find?_some found)
    rw [same, List.dropLast_concat]
  split
  · rename_i found
    have global : pathScope path = none := (parent _ found).symm
    refine ⟨table, paths, ?_⟩
    by_cases outermost : path = []
    · rw [if_pos outermost]
    · rw [pathScope_eq outermost] at global
      cases global
  · rename_i scope found
    have around : pathScope path = some scope := (parent _ found).symm
    refine ⟨_, erased, ?_⟩
    by_cases outermost : path = []
    · rw [outermost] at around
      cases around
    · rw [pathScope_eq outermost] at around
      cases around
      rw [if_neg outermost]
  · have own_plain := (plain.plain name (by simp)).2.1
    refine ⟨table, paths, ?_⟩
    by_cases outermost : path = []
    · have no_mark : splitLast? '_' (pathName (path ++ [name])).toList = none := by
        rw [outermost]
        apply splitLast?_none
        simpa [pathName] using own_plain
      rw [if_pos outermost]
      split
      · rename_i cut
        rw [no_mark] at cut
        cases cut
      · rfl
    · have last_mark : splitLast? '_' (pathName (path ++ [name])).toList =
          some ((pathName path).toList, name.toList) := by
        rw [pathName_append outermost (by simp)]
        simpa [pathName] using splitLast?_append (pathName path).toList own_plain
      rw [if_neg outermost]
      split
      · rename_i cut
        rw [last_mark] at cut
        cases cut
        rw [String.ofList_toList]
      · rename_i cut
        rw [last_mark] at cut
        cases cut

theorem inits_reverse_append (path : List String) (name : String) :
    (path ++ [name]).inits.reverse = (path ++ [name]) :: path.inits.reverse := by
  simp [List.inits_append]

theorem scopesFrom_eq {table : List (String × Option String)} (paths : IsPathTable table)
    {path : List String} (plain : IsPlainPath path) :
    (scopesFrom table (pathName path)).map some ++ [none] = path.inits.reverse.map pathScope := by
  induction path using List.reverseRecOn generalizing table with
  | nil => exact absurd rfl plain.nonempty
  | append_singleton path name ih =>
    obtain ⟨rest, rest_paths, step⟩ := scopesFrom_step paths plain
    rw [step, inits_reverse_append, List.map_cons, List.map_cons, pathScope_eq plain.nonempty,
      List.cons_append]
    congr 1
    by_cases outermost : path = []
    · subst outermost
      rfl
    · rw [if_neg outermost]
      exact ih rest_paths ⟨outermost, fun part listed => plain.plain part (by simp [listed])⟩

/-! ## Names to look up -/

/-- A type as it is written at a place: its parts with dots between them. -/
def dottedName (parts : List String) : String := ".".intercalate parts

/-- The scopes in which parts are looked up from a place, innermost first. -/
def lookupScopes (path : List String) : List String → List (List String)
  | [_] => path.inits.reverse
  | _ => [[]]

theorem lookupScopes_subset {place parts scope : List String}
    (listed : scope ∈ lookupScopes place parts) : scope ⊆ place := by
  unfold lookupScopes at listed
  split at listed
  · exact ((List.mem_inits scope place).mp (List.mem_reverse.mp listed)).subset
  · rw [List.mem_singleton.mp listed]
    exact List.nil_subset place

theorem undot_dotted {parts : List String} (plain : ∀ part ∈ parts, IsPlainName part) :
    (dottedName parts).toList.map (fun c => if c = '.' then '_' else c) =
      (pathName parts).toList := by
  have kept : ∀ part ∈ parts,
      part.toList.map (fun c => if c = '.' then '_' else c) = part.toList := by
    intro part listed
    have no_dot := (plain part listed).2.2
    conv_rhs => rw [← List.map_id part.toList]
    apply List.map_congr_left
    intro c member
    have different : c ≠ '.' := by
      rintro rfl
      exact no_dot member
    simp [different]
  rw [dottedName, pathName_toList, String.toList_intercalate]
  induction parts with
  | nil => rfl
  | cons first rest ih =>
    have below := ih (fun part listed => plain part (List.mem_cons_of_mem _ listed))
      (fun part listed => kept part (List.mem_cons_of_mem _ listed))
    cases rest with
    | nil => simpa using kept first (by simp)
    | cons next rest =>
      simp only [List.map_cons, List.intercalate_cons_cons, List.map_append] at below ⊢
      rw [below, kept first (by simp)]
      simp

namespace Registry

theorem lookup_dottedName {registry : Registry} (paths : IsPathTable registry.scopes)
    {path parts : List String} (plain : IsPlainPath path) {last : String}
    (parts_plain : IsPlainPath (parts ++ [last])) :
    (registry.lookup (dottedName (parts ++ [last])) (some (pathName path))).name = last ∧
    (registry.lookup (dottedName (parts ++ [last])) (some (pathName path))).targets =
      (lookupScopes path (parts ++ [last])).map
        (fun scope => pathName (scope ++ (parts ++ [last]))) := by
  have last_plain := parts_plain.plain last (by simp)
  by_cases single : parts = []
  · subst single
    have no_dot : splitLast? '.' (dottedName ([] ++ [last])).toList = none := by
      apply splitLast?_none
      simpa [dottedName] using last_plain.2.2
    unfold lookup
    rw [no_dot]
    refine ⟨by simp [dottedName], ?_⟩
    dsimp only
    rw [enclosingScopes, Option.getD_some, scopesFrom_eq paths plain, List.map_map]
    apply List.map_congr_left
    intro scope listed
    have around : ∀ part ∈ scope, IsPlainName part := by
      have before := (List.mem_inits scope path).mp (List.mem_reverse.mp listed)
      exact fun part member => plain.plain part (before.subset member)
    rw [Function.comp, qualifiedName_pathScope around]
    simp [dottedName]
  · have last_dot : splitLast? '.' (dottedName (parts ++ [last])).toList =
        some ((dottedName parts).toList, last.toList) := by
      have joined : (dottedName (parts ++ [last])).toList =
          (dottedName parts).toList ++ '.' :: last.toList := by
        rw [dottedName, dottedName, String.toList_intercalate, String.toList_intercalate,
          List.map_append, intercalate_append _ (by simpa using single) (by simp)]
        simp
      rw [joined]
      exact splitLast?_append _ last_plain.2.2
    have qualifier : ∀ part ∈ parts, IsPlainName part :=
      fun part listed => parts_plain.plain part (by simp [listed])
    have scope : lookupScopes path (parts ++ [last]) = [[]] := by
      obtain ⟨first, rest, rfl⟩ := List.exists_cons_of_ne_nil single
      cases rest <;> rfl
    unfold lookup
    rw [last_dot, scope]
    refine ⟨String.ofList_toList, ?_⟩
    dsimp only
    rw [undot_dotted qualifier, String.ofList_toList, String.ofList_toList, ← pathScope_eq single,
      qualifiedName_pathScope qualifier]
    rfl

end Registry

end ApiHandbook
