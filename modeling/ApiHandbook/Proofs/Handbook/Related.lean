import ApiHandbook.Handbook.Related

/-!
# Related objects are the reachable ones

The objects collected from some members are exactly the registered objects that can be reached
from them, each of them once.
-/
namespace ApiHandbook.Handbook
open Schema

/-- The names that can be reached from some names through the members of objects. A name without
an object leads nowhere. -/
inductive Reachable (objects : List SchemaObject) (start : List String) : String → Prop
  | start {name : String} (listed : name ∈ start) : Reachable objects start name
  | through {name other : String} {object : SchemaObject} (reached : Reachable objects start name)
      (found : objects.find? (·.name == name) = some object)
      (mentioned : other ∈ memberReferences object.members) : Reachable objects start other

section
variable {unseen : List SchemaObject} {waiting : List String} {name other : String}
variable {object found : SchemaObject}

theorem find?_without (different : other ≠ name) :
    (unseen.filter (·.name != name)).find? (·.name == other) =
      unseen.find? (·.name == other) := by
  rw [List.find?_filter]
  congr 1
  funext candidate
  by_cases same : candidate.name = other
  · simp [same, different]
  · simp [same]

theorem find?_without_self : (unseen.filter (·.name != name)).find? (·.name == name) = none := by
  rw [List.find?_eq_none]
  intro candidate member
  simpa using (List.mem_filter.mp member).2

/-- A name without an object can be taken off the waiting names. -/
theorem Reachable.drop_unknown (unknown : unseen.find? (·.name == name) = none)
    (reached : Reachable unseen (name :: waiting) other) :
    other = name ∨ Reachable unseen waiting other := by
  induction reached with
  | start listed =>
    rcases List.mem_cons.mp listed with same | later
    · exact .inl same
    · exact .inr (.start later)
  | @through name' other object reached found mentioned ih =>
    rcases ih with rfl | earlier
    · rw [unknown] at found
      cases found
    · exact .inr (.through earlier found mentioned)

/-- Once an object is taken, its references are waiting in its place. -/
theorem Reachable.take (known : unseen.find? (·.name == name) = some object)
    (reached : Reachable unseen (name :: waiting) other) :
    other = name ∨ Reachable (unseen.filter (·.name != name))
      (memberReferences object.members ++ waiting) other := by
  induction reached with
  | start listed =>
    rcases List.mem_cons.mp listed with same | later
    · exact .inl same
    · exact .inr (.start (List.mem_append_right _ later))
  | @through middle other holder reached found mentioned ih =>
    by_cases same : middle = name
    · rw [same, known] at found
      cases found
      exact .inr (.start (List.mem_append_left _ mentioned))
    · have earlier := ih.resolve_left same
      exact .inr (.through earlier ((find?_without same).trans found) mentioned)

theorem Reachable.put_back (known : unseen.find? (·.name == name) = some object)
    (reached : Reachable (unseen.filter (·.name != name))
      (memberReferences object.members ++ waiting) other) :
    Reachable unseen (name :: waiting) other := by
  induction reached with
  | start listed =>
    rcases List.mem_append.mp listed with mentioned | later
    · exact .through (.start List.mem_cons_self) known mentioned
    · exact .start (List.mem_cons_of_mem _ later)
  | @through middle other holder reached found mentioned ih =>
    have different : middle ≠ name := by
      rintro rfl
      rw [find?_without_self] at found
      cases found
    exact .through ih ((find?_without different).symm.trans found) mentioned

theorem Reachable.more (reached : Reachable unseen waiting other) :
    Reachable unseen (name :: waiting) other := by
  induction reached with
  | start listed => exact .start (List.mem_cons_of_mem _ listed)
  | through _ found mentioned ih => exact .through ih found mentioned

/-- What can be reached stays among names that are closed under references. -/
theorem Reachable.mem_of_closed {names : List String} (reached : Reachable unseen waiting other)
    (listed : ∀ start ∈ waiting, start ∈ names)
    (closed : ∀ object ∈ unseen, object.name ∈ names →
      ∀ mentioned ∈ memberReferences object.members, mentioned ∈ names) : other ∈ names := by
  induction reached with
  | start member => exact listed _ member
  | @through middle other holder _ found mentioned ih =>
    have same : holder.name = middle := by simpa using List.find?_some found
    exact closed holder (List.mem_of_find?_eq_some found) (same ▸ ih) other mentioned

end

theorem name_eq_of_find? {objects : List SchemaObject} {name : String} {object : SchemaObject}
    (found : objects.find? (·.name == name) = some object) : object.name = name := by
  simpa using List.find?_some found

/-- An object is collected if and only if its name can be reached and leads to it. -/
theorem mem_reach {unseen : List SchemaObject} {waiting : List String} {object : SchemaObject} :
    object ∈ reach unseen waiting ↔
      Reachable unseen waiting object.name ∧
        unseen.find? (·.name == object.name) = some object := by
  fun_induction reach unseen waiting with
  | case1 unseen =>
    constructor
    · intro member
      cases member
    · rintro ⟨reached, _⟩
      generalize object.name = name at reached
      exfalso
      induction reached with
      | start listed => cases listed
      | through _ _ _ ih => exact ih
  | case2 unseen name waiting unknown ih =>
    rw [ih]
    constructor
    · rintro ⟨reached, known⟩
      exact ⟨reached.more, known⟩
    · rintro ⟨reached, known⟩
      rcases reached.drop_unknown unknown with same | reached
      · rw [same, unknown] at known
        cases known
      · exact ⟨reached, known⟩
  | case3 unseen name waiting first found _ ih =>
    have first_name : first.name = name := name_eq_of_find? found
    simp only [List.unattach_filter, List.unattach_attach] at ih
    rw [List.mem_cons, ih]
    constructor
    · rintro (rfl | ⟨reached, known⟩)
      · rw [first_name]
        exact ⟨.start List.mem_cons_self, found⟩
      · have different : object.name ≠ name := by
          intro same
          rw [same, find?_without_self] at known
          cases known
        exact ⟨reached.put_back found, (find?_without different).symm.trans known⟩
    · rintro ⟨reached, known⟩
      by_cases same : object.name = name
      · rw [same, found] at known
        cases known
        exact .inl rfl
      · exact .inr ⟨(reached.take found).resolve_left same, (find?_without same).trans known⟩

theorem reach_names_nodup (unseen : List SchemaObject) (waiting : List String) :
    ((reach unseen waiting).map (·.name)).Nodup := by
  fun_induction reach unseen waiting with
  | case1 unseen => exact List.nodup_nil
  | case2 unseen name waiting unknown ih => exact ih
  | case3 unseen name waiting first found _ ih =>
    simp only [List.unattach_filter, List.unattach_attach] at ih
    rw [List.map_cons, List.nodup_cons]
    refine ⟨?_, ih⟩
    intro repeated
    obtain ⟨other, member, same⟩ := List.mem_map.mp repeated
    have known := (mem_reach.mp member).2
    rw [same, name_eq_of_find? found, find?_without_self] at known
    cases known

theorem sortByName_perm (objects : List SchemaObject) : (sortByName objects).Perm objects :=
  List.mergeSort_perm _ _

/-- The names that can be reached from the members, in a registry. -/
def Reaches (registry : Registry) (members : List Member) (name : String) : Prop :=
  Reachable registry.objects (memberReferences members) name

theorem mem_relatedObjects {registry : Registry} {members : List Member} {object : SchemaObject} :
    object ∈ relatedObjects registry members ↔
      Reaches registry members object.name ∧ registry.object? object.name = some object := by
  rw [relatedObjects, (sortByName_perm _).mem_iff]
  exact mem_reach

theorem relatedObjects_names_nodup (registry : Registry) (members : List Member) :
    ((relatedObjects registry members).map (·.name)).Nodup := by
  rw [relatedObjects, ((sortByName_perm _).map _).nodup_iff]
  exact reach_names_nodup _ _

end ApiHandbook.Handbook
