import ApiHandbook.Proofs.Extraction.Passes

/-!
# Reports of the passes

The reports of a run are those of its finished passes, in their order, each with the errors that the
pass has recorded.
-/
namespace ApiHandbook.Extraction

open Schema Source

/-- Passes follow each other, each on the registry that the one before it has left, up to the first
that is stopped. A finished pass reports the errors that it has added. -/
inductive PassesRun (rules : Rules) (strict : Bool) (source : List Declaration) :
    List Pass → Registry → List Report → Registry → Option SchemaError → Prop
  | done {registry : Registry} : PassesRun rules strict source [] registry [] registry none
  | stopped {pass : Pass} {rest : List Pass} {registry : Registry} {stop : Stopped}
      (run : pass.run rules strict source registry = .error stop) :
      PassesRun rules strict source (pass :: rest) registry [] stop.registry (some stop.error)
  | finished {pass : Pass} {rest : List Pass} {registry after final : Registry}
      {errors : List SchemaError} {reports : List Report} {raised : Option SchemaError}
      (run : pass.run rules strict source registry = .ok after)
      (added : after.errors = registry.errors ++ errors)
      (further : PassesRun rules strict source rest after reports final raised) :
      PassesRun rules strict source (pass :: rest) registry (⟨pass, errors⟩ :: reports) final raised

variable {rules : Rules} {strict : Bool} {source : List Declaration} {passes : List Pass}
  {registry final : Registry} {reports : List Report} {raised : Option SchemaError}

/-- A pass takes no error back. -/
theorem pass_errors_kept {pass : Pass} {after : Registry}
    (run : pass.run rules strict source registry = .ok after) :
    registry.errors <+: after.errors := by
  by_cases first : pass = .symbols
  · subst first
    obtain ⟨symbols, scopes, collected⟩ := collectAllSymbols_frame source none registry
    have after_eq : collectAllSymbols none registry source = after := Except.ok.inj run
    have kept : after.errors = registry.errors := by rw [← after_eq, collected]
    exact kept ▸ List.prefix_rfl
  · have grown := (pass_run rules strict source registry pass first).growth
      fun _ _ step => step.growth
    rw [run] at grown
    exact grown.errors

theorem runPasses_eq_iff :
    runPasses rules strict source registry passes = ⟨reports, final, raised⟩ ↔
      PassesRun rules strict source passes registry reports final raised := by
  constructor
  · intro ran
    induction passes generalizing registry reports with
    | nil =>
      cases ran
      exact .done
    | cons pass rest ih =>
      rw [runPasses] at ran
      split at ran
      · rename_i stop run
        cases ran
        exact .stopped run
      · rename_i after run
        cases ran
        obtain ⟨errors, added⟩ := pass_errors_kept run
        rw [← added, List.drop_left]
        exact .finished run added.symm (ih rfl)
  · intro ran
    induction ran with
    | done => rfl
    | stopped run => rw [runPasses, run]
    | finished run added _ ih => simp only [runPasses, run, ih, added, List.drop_left]

theorem PassesRun.passes_reported
    (ran : PassesRun rules strict source passes registry reports final raised) :
    reports.map (·.pass) <+: passes := by
  induction ran with
  | done => exact List.prefix_rfl
  | stopped => exact List.nil_prefix
  | finished _ _ _ ih => exact (List.prefix_cons_inj _).mpr ih

theorem PassesRun.all_reported
    (ran : PassesRun rules strict source passes registry reports final none) :
    reports.map (·.pass) = passes := by
  generalize ended : (none : Option SchemaError) = raised at ran
  induction ran with
  | done => rfl
  | stopped => cases ended
  | finished _ _ _ ih => rw [List.map_cons, ih ended]

end ApiHandbook.Extraction
