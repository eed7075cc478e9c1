import ApiHandbook.Registry.Basic

/-! # Related objects: all that can be reached from some members -/
namespace ApiHandbook.Handbook

open Schema

/-- The names that members refer to, in reading order. -/
def memberReferences (members : List Member) : List String :=
  members.flatMap (·.valueType.references)

/-- The objects of `unseen` that can be reached from the names in `waiting`. Names without an
object contribute nothing. -/
def reach (unseen : List SchemaObject) (waiting : List String) : List SchemaObject :=
  match waiting with
  | [] => []
  | name :: waiting =>
    match found : unseen.find? (·.name == name) with
    | none => reach unseen waiting
    | some object =>
      have : (unseen.filter (·.name != name)).length < unseen.length :=
        List.length_filter_lt_length_iff_exists.2
          ⟨object, List.mem_of_find?_eq_some found, by simpa using List.find?_some found⟩
      object :: reach (unseen.filter (·.name != name))
        (memberReferences object.members ++ waiting)
termination_by (unseen.length, waiting.length)

def sortByName (objects : List SchemaObject) : List SchemaObject :=
  objects.mergeSort fun a b => decide (a.name ≤ b.name)

/-- Every object that can be reached from the members, sorted by name. -/
def relatedObjects (registry : Registry) (members : List Member) : List SchemaObject :=
  sortByName (reach registry.objects (memberReferences members))

end ApiHandbook.Handbook
