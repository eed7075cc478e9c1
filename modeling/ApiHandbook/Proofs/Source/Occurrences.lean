import ApiHandbook.Schema.Object
import ApiHandbook.Proofs.Extraction.Basic

/-!
# Where types are declared

Every record and enumeration of a source with the types around it. The list is in source order,
a type before what is nested in it.
-/
namespace ApiHandbook.Source
open Schema

/-- The qualified name of the innermost of some types, each nested in the one before. -/
def scopeOf (around : List Heading) : Option String :=
  around.foldl (fun scope heading => some (qualifiedName scope heading.name)) none

theorem scopeOf_append (around : List Heading) (heading : Heading) :
    scopeOf (around ++ [heading]) = some (qualifiedName (scopeOf around) heading.name) := by
  simp [scopeOf]

/-- A type declaration with the headings of the types around it, outermost first. -/
structure Occurrence where
  around : List Heading
  heading : Heading
  children : List Declaration

namespace Occurrence

def name (type : Occurrence) : String := qualifiedName (scopeOf type.around) type.heading.name

/-- The local names from the outermost type to this one. -/
def path (type : Occurrence) : List String := type.around.map (·.name) ++ [type.heading.name]

/-- Whether the type lies inside an endpoint. -/
def isEnclosed (type : Occurrence) : Bool := type.around.any (·.isEndpoint)

end Occurrence

mutual

/-- The types at and below a declaration, at any depth. -/
def occurrences (around : List Heading) : Declaration → List Occurrence
  | .node heading children =>
    if heading.isType then ⟨around, heading, children⟩ :: allOccurrences (around ++ [heading]) children
    else []

def allOccurrences (around : List Heading) : List Declaration → List Occurrence
  | [] => []
  | declaration :: rest => occurrences around declaration ++ allOccurrences around rest

end

theorem allOccurrences_cons (around : List Heading) (heading : Heading)
    (children rest : List Declaration) :
    allOccurrences around (.node heading children :: rest) =
      (if heading.isType then
        ⟨around, heading, children⟩ :: allOccurrences (around ++ [heading]) children
      else []) ++ allOccurrences around rest := by
  rw [allOccurrences, occurrences]

theorem mem_allOccurrences_cons {around : List Heading} {heading : Heading}
    {children rest : List Declaration} {type : Occurrence} :
    type ∈ allOccurrences around (.node heading children :: rest) ↔
      heading.isType = true ∧ (type = ⟨around, heading, children⟩ ∨
        type ∈ allOccurrences (around ++ [heading]) children) ∨
      type ∈ allOccurrences around rest := by
  rw [allOccurrences_cons, List.mem_append]
  split <;> simp_all

/-- What is found below some types has all of them around it. -/
theorem around_of_mem_allOccurrences {declarations : List Declaration} {around : List Heading}
    {type : Occurrence} (listed : type ∈ allOccurrences around declarations) :
    around <+: type.around := by
  induction declarations using Declaration.forest_induction generalizing around with
  | nil => cases listed
  | cons heading children rest inner after =>
    rcases mem_allOccurrences_cons.mp listed with ⟨_, rfl | below⟩ | later
    · exact List.prefix_rfl
    · exact (List.prefix_append around [heading]).trans (inner below)
    · exact after later

end ApiHandbook.Source
