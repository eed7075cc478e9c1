import ApiHandbook.Extraction.Run
import ApiHandbook.Proofs.Extraction.OneOfs
import ApiHandbook.Proofs.Extraction.Endpoints

/-!
# The passes together

The first pass fills symbols and scopes and cannot fail. The other three are one run of steps, so
that what every step keeps holds in the registry that an extraction leaves.
-/
namespace ApiHandbook.Extraction
open Schema Source

/-- The first pass touches nothing but symbols and scopes. -/
theorem collectAllSymbols_frame (declarations : List Declaration) (scope : Option String)
    (registry : Registry) : ∃ symbols scopes, collectAllSymbols scope registry declarations =
      { registry with symbols := symbols, scopes := scopes } := by
  induction declarations using Declaration.forest_induction generalizing scope registry with
  | nil => exact ⟨registry.symbols, registry.scopes, rfl⟩
  | cons heading children rest inner after =>
    rw [collectAllSymbols, collectSymbols]
    split
    · dsimp only
      have named : ∃ symbols scopes, (if heading.isObject then
            (registry.addScope (qualifiedName scope heading.name) scope).addSymbol
              (qualifiedName scope heading.name)
          else registry.addScope (qualifiedName scope heading.name) scope) =
            { registry with symbols := symbols, scopes := scopes } := by
        unfold Registry.addScope Registry.addSymbol
        repeat' split
        all_goals exact ⟨_, _, rfl⟩
      obtain ⟨symbols, scopes, named⟩ := named
      rw [named]
      obtain ⟨symbols, scopes, below⟩ := inner (some (qualifiedName scope heading.name))
        { registry with symbols := symbols, scopes := scopes }
      rw [below]
      obtain ⟨symbols, scopes, behind⟩ := after scope
        { registry with symbols := symbols, scopes := scopes }
      exact ⟨symbols, scopes, behind⟩
    · exact after scope registry

/-- The changes that can be made after the first pass. -/
inductive PassStep (rules : Rules) (strict : Bool) (registry next : Registry) : Prop
  | oneOf (step : OneOfStep rules strict registry next)
  | object (step : ObjectStep rules strict registry next)
  | endpoint (step : EndpointStep rules strict registry next)

theorem PassStep.growth {rules : Rules} {strict : Bool} {before after : Registry}
    (step : PassStep rules strict before after) : Registry.Growth before after := by
  cases step with
  | oneOf step => exact step.growth
  | object step => exact step.growth.growth
  | endpoint step => exact step.growth

/-- All passes as one run, without the reports. -/
def runAll (rules : Rules) (strict : Bool) (source : List Declaration) :
    Except Stopped Registry :=
  walkAllOneOfs rules strict none (collectAllSymbols none {} source) source >>= fun registry =>
  walkAllObjects rules strict none registry source >>= fun registry =>
  walkAllEndpoints rules strict none registry source

theorem extract_eq_runAll (rules : Rules) (strict : Bool) (source : List Declaration) :
    (extract rules strict source).registry = registryLeft (runAll rules strict source) ∧
      (extract rules strict source).raised = stopError? (runAll rules strict source) := by
  unfold extract runAll Pass.all
  simp only [runPasses, Pass.run]
  cases walkAllOneOfs rules strict none (collectAllSymbols none {} source) source with
  | error stopped => exact ⟨rfl, rfl⟩
  | ok wrapped =>
    dsimp only [bind, Except.bind]
    cases walkAllObjects rules strict none wrapped source with
    | error stopped => exact ⟨rfl, rfl⟩
    | ok filled =>
      dsimp only
      cases walkAllEndpoints rules strict none filled source with
      | error stopped => exact ⟨rfl, rfl⟩
      | ok registry => exact ⟨rfl, rfl⟩

theorem runAll_run (rules : Rules) (strict : Bool) (source : List Declaration) :
    RunBy (PassStep rules strict) (collectAllSymbols none {} source)
      (runAll rules strict source) := by
  unfold runAll
  apply ((walkAllOneOfs_run rules strict source none _).mono fun _ _ => PassStep.oneOf).bind
  intro wrapped
  apply ((walkAllObjects_run rules strict source none wrapped).mono fun _ _ => PassStep.object).bind
  intro filled
  exact (walkAllEndpoints_run rules strict source none filled).mono fun _ _ => PassStep.endpoint

theorem pass_run (rules : Rules) (strict : Bool) (source : List Declaration)
    (registry : Registry) (pass : Pass) (later : pass ≠ .symbols) :
    RunBy (PassStep rules strict) registry (pass.run rules strict source registry) := by
  cases pass with
  | symbols => exact absurd rfl later
  | oneOfs => exact (walkAllOneOfs_run rules strict source none registry).mono fun _ _ => .oneOf
  | objects => exact (walkAllObjects_run rules strict source none registry).mono fun _ _ => .object
  | endpoints =>
    exact (walkAllEndpoints_run rules strict source none registry).mono fun _ _ => .endpoint

/-- What every step keeps, any number of passes keep. -/
theorem runPasses_keeps {rules : Rules} {strict : Bool} {source : List Declaration}
    {invariant : Registry → Prop}
    (kept : ∀ registry next, PassStep rules strict registry next → invariant registry →
      invariant next)
    (passes : List Pass) (later : .symbols ∉ passes) (registry : Registry)
    (start : invariant registry) :
    invariant (runPasses rules strict source registry passes).registry := by
  induction passes generalizing registry with
  | nil => exact start
  | cons pass rest ih =>
    have made := pass_run rules strict source registry pass
      (fun first => later (first ▸ List.mem_cons_self))
    have held := steps_keep kept made.steps start
    unfold runPasses
    split
    · rename_i stopped failed
      rw [failed] at held
      exact held
    · rename_i after finished
      rw [finished] at held
      exact ih (fun member => later (List.mem_cons_of_mem _ member)) after held

/-- What the first pass establishes and every step keeps holds when an extraction ends. -/
theorem extract_keeps {rules : Rules} {strict : Bool} {source : List Declaration}
    {invariant : Registry → Prop}
    (kept : ∀ registry next, PassStep rules strict registry next → invariant registry →
      invariant next)
    (start : invariant (collectAllSymbols none {} source)) :
    invariant (extract rules strict source).registry :=
  runPasses_keeps kept [.oneOfs, .objects, .endpoints] (by simp) _ start

theorem runAll_lenient (rules : Rules) (source : List Declaration) :
    ∃ after, runAll rules false source = .ok after := by
  apply ok_bind (walkAllOneOfs_lenient rules source none _)
  intro wrapped
  apply ok_bind (walkAllObjects_lenient rules source none wrapped)
  intro filled
  exact walkAllEndpoints_lenient rules source none filled

theorem extract_lenient_raised (rules : Rules) (source : List Declaration) :
    (extract rules false source).raised = none := by
  obtain ⟨after, finished⟩ := runAll_lenient rules source
  rw [(extract_eq_runAll rules false source).2, finished]
  rfl

end ApiHandbook.Extraction
