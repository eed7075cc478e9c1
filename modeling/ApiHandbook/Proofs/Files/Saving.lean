import ApiHandbook.Files.Tree
import ApiHandbook.Proofs.Except

/-!
# Saved files

A file that is saved is found under its path, and no other file changes.
-/
namespace ApiHandbook.Files

/-- The file that a target is, or would be. -/
def Target.parts? : Target → Option (List String)
  | .file _ parts | .missing parts => some parts
  | .directory _ => none

namespace FileTree

variable {tree after : FileTree} {content : List UInt8} {directory : List String} {name : String}
  {names parts : List String} {target : Target}

/-! ## Putting a file -/

theorem lookup_without (files : List (List String × List UInt8)) (parts other : List String) :
    (files.filter (·.1 ≠ parts)).lookup other =
      if other = parts then none else files.lookup other := by
  induction files with
  | nil => simp
  | cons file rest ih =>
    obtain ⟨path, bytes⟩ := file
    by_cases dropped : path = parts
    · rw [List.filter_cons_of_neg (by simp [dropped]), ih, List.lookup_cons]
      by_cases same : other = parts
      · rw [if_pos same, if_pos same]
      · have different : (other == path) = false := by simpa [dropped] using same
        rw [different]
    · rw [List.filter_cons_of_pos (by simp [dropped]), List.lookup_cons, List.lookup_cons, ih]
      by_cases same : other = path
      · simp [same, dropped]
      · have different : (other == path) = false := by simpa using same
        rw [different]

theorem lookup_putFile (tree : FileTree) (parts other : List String) (content : List UInt8) :
    (tree.putFile parts content).files.lookup other =
      if other = parts then some content else tree.files.lookup other := by
  rw [putFile, List.lookup_append, lookup_without]
  by_cases same : other = parts
  · simp [same]
  · have different : (other == parts) = false := by simpa using same
    simp [same, List.lookup_cons, different]

/-- No directory stands where a file can be put. -/
def Free (tree : FileTree) (parts : List String) : Prop :=
  (tree.files.lookup parts).isSome = true ∨ tree.hasDirectory parts = false

/-- What a name can stand for. -/
theorem child_cases (step : tree.child directory name = .ok target) :
    (target.parts? = none ∧
      ∀ other content, (tree.putFile other content).child directory name = .ok target) ∨
    name ≠ ".." ∧ ¬ name.utf8ByteSize > maxName ∧
      ((∃ content, tree.files.lookup (directory ++ [name]) = some content ∧
          target = .file content (directory ++ [name])) ∨
        tree.files.lookup (directory ++ [name]) = none ∧
          target =
            if tree.hasDirectory (directory ++ [name]) then .directory (directory ++ [name])
            else .missing (directory ++ [name])) := by
  rw [child] at step
  split at step
  · cases step
  rename_i short
  split at step
  · rename_i up
    cases step
    refine .inl ⟨rfl, fun other content => ?_⟩
    rw [child, if_neg short, if_pos up]
  rename_i named
  refine .inr ⟨named, short, ?_⟩
  dsimp only at step
  split at step
  · rename_i content found
    cases step
    exact .inl ⟨content, found, rfl⟩
  · rename_i absent
    cases step
    exact .inr ⟨absent, rfl⟩

theorem child_free (step : tree.child directory name = .ok target)
    (leads : target.parts? = some parts) : tree.Free parts := by
  obtain ⟨nothing, -⟩ | ⟨-, -, ⟨content, found, rfl⟩ | ⟨absent, rfl⟩⟩ := child_cases step
  · rw [nothing] at leads
    cases leads
  · cases leads
    exact .inl (by simp [found])
  · by_cases stands : tree.hasDirectory (directory ++ [name]) = true
    · rw [if_pos stands] at leads
      cases leads
    · rw [if_neg stands] at leads
      cases leads
      exact .inr (by simpa using stands)

/-- In the tree with the file every name stands for what it stood for, but for the file itself. -/
theorem child_putFile (step : tree.child directory name = .ok target) (free : tree.Free parts)
    (content : List UInt8) :
    (tree.putFile parts content).child directory name =
      .ok (if target.parts? = some parts then .file content parts else target) := by
  obtain ⟨nothing, same⟩ | ⟨named, short, kinds⟩ := child_cases step
  · rw [nothing, if_neg (by simp), same]
  · rw [child, if_neg short, if_neg named]
    simp only [lookup_putFile]
    by_cases here : directory ++ [name] = parts
    · subst here
      have leads : target.parts? = some (directory ++ [name]) := by
        rcases kinds with ⟨old, -, rfl⟩ | ⟨absent, rfl⟩
        · rfl
        · have no_directory : tree.hasDirectory (directory ++ [name]) = false := by
            simpa [Free, absent] using free
          simp [no_directory, Target.parts?]
      simp [leads]
    · have stays : tree.hasDirectory (directory ++ [name]) =
          (tree.putFile parts content).hasDirectory (directory ++ [name]) := rfl
      rcases kinds with ⟨old, found, rfl⟩ | ⟨absent, rfl⟩
      · simp [here, found, Target.parts?]
      · rw [if_neg here, absent, ← stays]
        by_cases stands : tree.hasDirectory (directory ++ [name]) = true
        · simp [stands, Target.parts?]
        · simp [stands, Target.parts?, here]

theorem follow_free (path : tree.follow directory names = .ok target)
    (leads : target.parts? = some parts) : tree.Free parts := by
  induction names generalizing directory with
  | nil =>
    cases path
    cases leads
  | cons name rest ih =>
    rw [follow] at path
    split at path
    · cases path
    · exact ih path
    · rename_i found no_directory step
      split at path
      · cases path
        exact child_free step leads
      · cases path
      · cases path

theorem follow_putFile (path : tree.follow directory names = .ok target)
    (leads : target.parts? = some parts) (content : List UInt8) :
    (tree.putFile parts content).follow directory names = .ok (.file content parts) := by
  have free := follow_free path leads
  induction names generalizing directory with
  | nil =>
    cases path
    cases leads
  | cons name rest ih =>
    rw [follow] at path ⊢
    split at path
    · cases path
    · rename_i next step
      rw [child_putFile step free content, if_neg (by simp [Target.parts?])]
      exact ih path
    · rename_i found no_directory step
      split at path
      · cases path
        rw [child_putFile step free content, if_pos leads]
      · cases path
      · cases path

/-! ## Saving -/

theorem files_makeDirectory {path : Path} (made : tree.makeDirectory path = .ok after) :
    after.files = tree.files := by
  obtain ⟨target, -, made⟩ := ok_of_bind made
  cases target with
  | directory | missing => cases made; rfl
  | file => cases made

theorem files_makeDirectories {root : String} {reversed : List String}
    (made : tree.makeDirectories root reversed = .ok after) : after.files = tree.files := by
  induction reversed generalizing after with
  | nil =>
    cases made
    rfl
  | cons name outer ih =>
    rw [makeDirectories] at made
    split at made
    · rename_i directly
      cases made
      exact files_makeDirectory directly
    · obtain ⟨inner, inner_made, made⟩ := ok_of_bind made
      exact (files_makeDirectory (ok_of_mapError made)).trans (ih inner_made)
    · cases made

/-- A saved file is found under its path and holds what was saved; all other files are as they
were. -/
theorem save_effects {path : Path} (saved : tree.save path content = .ok after) :
    ∃ parts, after.find path = .ok (.file content parts) ∧
      ∀ other, other ≠ parts → after.files.lookup other = tree.files.lookup other := by
  obtain ⟨prepared, made, written⟩ := ok_of_bind saved
  obtain ⟨target, found, put⟩ := ok_of_bind (ok_of_mapError written)
  obtain ⟨parts, leads, rfl⟩ : ∃ parts, target.parts? = some parts ∧
      prepared.putFile parts content = after := by
    cases target with
    | file old parts => exact ⟨parts, rfl, Except.ok.inj put⟩
    | missing parts => exact ⟨parts, rfl, Except.ok.inj put⟩
    | directory => cases put
  rw [find] at found
  split at found
  · cases found
  rename_i short
  refine ⟨parts, ?_, fun other different => ?_⟩
  · rw [find, if_neg short]
    exact follow_putFile found leads content
  · rw [lookup_putFile, if_neg different, files_makeDirectories made]

end FileTree

end ApiHandbook.Files
