import Mathlib.Data.List.Induction
import Mathlib.Data.List.Infix
import ApiHandbook.Registry.Resolve
import ApiHandbook.Proofs.Source.Occurrences

/-!
# Qualified names and paths

A qualified name is its path with underscores between the parts. As long as the parts have no
underscores of their own, nothing is lost: equal names have equal paths, and a name ends with
another one where its path does.
-/
namespace ApiHandbook.Source
open Schema Text

/-- A word that can be a part of a path: it has neither of the marks that join parts. -/
def IsPlainName (name : String) : Prop := name ≠ "" ∧ '_' ∉ name.toList ∧ '.' ∉ name.toList

instance (name : String) : Decidable (IsPlainName name) :=
  inferInstanceAs (Decidable (_ ∧ _ ∧ _))

/-- A path to a type: at least one part, all of them plain. -/
structure IsPlainPath (path : List String) : Prop where
  nonempty : path ≠ []
  plain : ∀ name ∈ path, IsPlainName name

instance (path : List String) : Decidable (IsPlainPath path) :=
  decidable_of_iff (path ≠ [] ∧ ∀ name ∈ path, IsPlainName name)
    ⟨fun ⟨nonempty, plain⟩ => ⟨nonempty, plain⟩, fun ⟨nonempty, plain⟩ => ⟨nonempty, plain⟩⟩

def pathName (path : List String) : String := "_".intercalate path

/-- The name of a scope; the global one has none. -/
def pathScope : List String → Option String
  | [] => none
  | path => some (pathName path)

theorem pathScope_eq {path : List String} (nonempty : path ≠ []) :
    pathScope path = some (pathName path) := by
  cases path with
  | nil => exact absurd rfl nonempty
  | cons name rest => rfl

theorem intercalate_append {α : Type} (mark : List α) {parts others : List (List α)}
    (nonempty : parts ≠ []) (others_nonempty : others ≠ []) :
    mark.intercalate (parts ++ others) =
      mark.intercalate parts ++ mark ++ mark.intercalate others := by
  induction parts with
  | nil => exact absurd rfl nonempty
  | cons part rest ih =>
    cases rest with
    | nil =>
      obtain ⟨other, more, rfl⟩ := List.exists_cons_of_ne_nil others_nonempty
      simp [List.intercalate_cons_cons]
    | cons next rest =>
      have below := ih (by simp)
      rw [List.cons_append, List.cons_append, List.intercalate_cons_cons,
        List.intercalate_cons_cons, ← List.cons_append, below]
      simp

theorem pathName_toList (path : List String) :
    (pathName path).toList = ['_'].intercalate (path.map String.toList) :=
  String.toList_intercalate

theorem pathName_append {path others : List String} (nonempty : path ≠ [])
    (others_nonempty : others ≠ []) :
    (pathName (path ++ others)).toList =
      (pathName path).toList ++ '_' :: (pathName others).toList := by
  rw [pathName_toList, List.map_append, intercalate_append ['_'] (by simpa using nonempty)
    (by simpa using others_nonempty), pathName_toList, pathName_toList]
  simp

namespace IsPlainPath

/-- The parts of a path, read off its name. -/
theorem splitOn_pathName {path : List String} (plain : IsPlainPath path) :
    (pathName path).toList.splitOn '_' = path.map String.toList := by
  rw [pathName_toList]
  apply List.splitOn_intercalate
  · intro part listed
    obtain ⟨name, member, rfl⟩ := List.mem_map.mp listed
    exact (plain.plain name member).2.1
  · simpa using plain.nonempty

theorem pathName_inj {path other : List String} (plain : IsPlainPath path)
    (other_plain : IsPlainPath other) (same : pathName path = pathName other) : path = other := by
  have parts : path.map String.toList = other.map String.toList := by
    rw [← plain.splitOn_pathName, ← other_plain.splitOn_pathName, same]
  exact List.map_injective_iff.mpr (fun _ _ => String.toList_inj.mp) parts

theorem pathName_ne_empty {path : List String} (plain : IsPlainPath path) : pathName path ≠ "" := by
  intro empty
  have parts := plain.splitOn_pathName
  rw [empty] at parts
  obtain ⟨name, rest, rfl⟩ := List.exists_cons_of_ne_nil plain.nonempty
  have first : name.toList = [] := by
    have heads := congrArg List.head? parts
    simpa using heads.symm
  exact (plain.plain name (by simp)).1 (String.toList_inj.mp first)

/-- A name ends with another, behind an underscore, exactly where the path goes on before it. -/
theorem endsWithPart_iff {target path : List String} (target_plain : IsPlainPath target)
    (plain : IsPlainPath path) :
    endsWithPart (pathName target) (pathName path) = true ↔ target <:+ path ∧ path ≠ target := by
  rw [endsWithPart, List.isSuffixOf_iff_suffix]
  constructor
  · rintro ⟨before, name_eq⟩
    have parts : path.map String.toList =
        before.splitOn '_' ++ target.map String.toList := by
      rw [← plain.splitOn_pathName, ← name_eq, List.splitOn_append_cons_self,
        target_plain.splitOn_pathName]
    obtain ⟨front, back, path_eq, front_eq, back_eq⟩ := List.map_eq_append_iff.mp parts
    have back_target : back = target :=
      List.map_injective_iff.mpr (fun _ _ => String.toList_inj.mp) back_eq
    subst back_target
    refine ⟨⟨front, path_eq.symm⟩, ?_⟩
    rintro rfl
    have no_front : front = [] := by simpa using path_eq
    rw [no_front] at front_eq
    exact List.splitOn_ne_nil _ _ front_eq.symm
  · rintro ⟨⟨front, rfl⟩, different⟩
    have front_nonempty : front ≠ [] := by
      rintro rfl
      exact different rfl
    rw [pathName_append front_nonempty target_plain.nonempty]
    exact List.suffix_append _ _

end IsPlainPath

/-- A plain name inside a scope. -/
theorem qualifiedName_pathScope {path : List String} (plain : ∀ part ∈ path, IsPlainName part)
    (name : String) : qualifiedName (pathScope path) name = pathName (path ++ [name]) := by
  cases path with
  | nil => simp [pathScope, qualifiedName, pathName]
  | cons first rest =>
    have inside : IsPlainPath (first :: rest) := ⟨by simp, plain⟩
    rw [pathScope_eq inside.nonempty, qualifiedName, if_neg (fun empty =>
      inside.pathName_ne_empty (String.isEmpty_iff.mp empty)), ← String.toList_inj,
      pathName_append (by simp) (by simp)]
    simp [pathName]

theorem scopeOf_eq_pathScope {around : List Heading}
    (plain : ∀ heading ∈ around, IsPlainName heading.name) :
    scopeOf around = pathScope (around.map (·.name)) := by
  induction around using List.reverseRecOn with
  | nil => rfl
  | append_singleton around heading ih =>
    have outer : ∀ part ∈ around.map (·.name), IsPlainName part := by
      intro part listed
      obtain ⟨outer, member, rfl⟩ := List.mem_map.mp listed
      exact plain outer (List.mem_append_left _ member)
    rw [scopeOf_append, ih (fun heading member => plain heading (List.mem_append_left _ member)),
      qualifiedName_pathScope outer, List.map_append, List.map_singleton, pathScope_eq (by simp)]

end ApiHandbook.Source
