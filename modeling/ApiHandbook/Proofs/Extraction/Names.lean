import ApiHandbook.Proofs.Extraction.Passes

/-!
# Registered names are distinct

The first registration of a name wins, so no two objects and no two endpoints of a registry have
one name, in every state of a run.
-/
namespace ApiHandbook.Extraction
open Schema Source
open Relation (ReflTransGen)

structure NamesDistinct (registry : Registry) : Prop where
  objects : (registry.objects.map (·.name)).Nodup
  endpoints : (registry.endpoints.map (·.name)).Nodup

theorem nodup_append_new {α : Type} {entries : List α} {nameOf : α → String} {entry : α}
    (distinct : (entries.map nameOf).Nodup)
    (new : ¬ entries.any (nameOf · == nameOf entry) = true) :
    ((entries ++ [entry]).map nameOf).Nodup := by
  rw [List.map_append, List.nodup_append]
  refine ⟨distinct, by simp, ?_⟩
  intro name member last at_end same
  obtain ⟨other, listed, rfl⟩ := List.mem_map.mp member
  rw [List.map_singleton, List.mem_singleton] at at_end
  exact new (List.any_eq_true.mpr ⟨other, listed, by simp [same, at_end]⟩)

theorem NamesDistinct.registerObject {registry : Registry} {object : SchemaObject}
    (distinct : NamesDistinct registry) : NamesDistinct (registry.registerObject object) := by
  unfold Registry.registerObject
  split
  · exact ⟨distinct.objects, distinct.endpoints⟩
  · rename_i new
    exact ⟨nodup_append_new distinct.objects new, distinct.endpoints⟩

theorem NamesDistinct.registerEndpoint {registry : Registry} {endpoint : Endpoint}
    (distinct : NamesDistinct registry) : NamesDistinct (registry.registerEndpoint endpoint) := by
  unfold Registry.registerEndpoint
  split
  · exact ⟨distinct.objects, distinct.endpoints⟩
  · rename_i new
    exact ⟨distinct.objects, nodup_append_new distinct.endpoints new⟩

theorem NamesDistinct.objectStep {rules : Rules} {strict : Bool} {before after : Registry}
    (step : ObjectStep rules strict before after) (distinct : NamesDistinct before) :
    NamesDistinct after := by
  cases step with
  | leftOut error _ => exact ⟨distinct.objects, distinct.endpoints⟩
  | tolerated error _ => exact ⟨distinct.objects, distinct.endpoints⟩
  | registered object _ => exact distinct.registerObject

theorem NamesDistinct.objectSteps {rules : Rules} {strict : Bool} {before after : Registry}
    (steps : ReflTransGen (ObjectStep rules strict) before after)
    (distinct : NamesDistinct before) : NamesDistinct after :=
  steps_keep (fun _ _ => NamesDistinct.objectStep) steps distinct

theorem NamesDistinct.passStep {rules : Rules} {strict : Bool} {before after : Registry}
    (step : PassStep rules strict before after) (distinct : NamesDistinct before) :
    NamesDistinct after := by
  cases step with
  | oneOf step =>
    cases step with
    | leftOut error _ => exact ⟨distinct.objects, distinct.endpoints⟩
    | tolerated error _ => exact ⟨distinct.objects, distinct.endpoints⟩
    | ordinary name => exact ⟨distinct.objects, distinct.endpoints⟩
    | registered wrapper _ =>
      unfold Registry.registerWrapper
      split <;> exact ⟨distinct.objects, distinct.endpoints⟩
  | object step => exact distinct.objectStep step
  | endpoint step =>
    cases step with
    | rolledBack middle steps =>
      rw [(objectSteps_growth steps).keepObjects_eq]
      exact ⟨distinct.objects, distinct.endpoints⟩
    | tolerated error _ => exact ⟨distinct.objects, distinct.endpoints⟩
    | registered middle endpoint steps _ =>
      exact (distinct.objectSteps steps).registerEndpoint

theorem extract_namesDistinct (rules : Rules) (strict : Bool) (source : List Declaration) :
    NamesDistinct (extract rules strict source).registry := by
  apply extract_keeps fun _ _ => NamesDistinct.passStep
  obtain ⟨symbols, scopes, fresh⟩ := collectAllSymbols_frame source none {}
  rw [fresh]
  exact ⟨List.nodup_nil, List.nodup_nil⟩

end ApiHandbook.Extraction
