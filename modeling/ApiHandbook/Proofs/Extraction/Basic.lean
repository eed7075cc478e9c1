import Mathlib.Logic.Relation
import ApiHandbook.Extraction.Basic
import ApiHandbook.Proofs.Except
import ApiHandbook.Proofs.Registry.Growth

/-!
# Runs, change by change

Every pass is a walk over nested declarations. For each of them all changes that it can make are
listed as a step relation, and the walk is shown to consist of such steps, whether it finishes or
is stopped. Invariants are then proved for one step at a time.
-/

namespace ApiHandbook.Source.Declaration

/-- Induction over nested declarations, a list at a time. -/
theorem forest_induction {motive : List Declaration → Prop} (nil : motive [])
    (cons : ∀ heading children rest, motive children → motive rest →
      motive (.node heading children :: rest)) : ∀ declarations, motive declarations
  | [] => nil
  | .node heading children :: rest =>
    cons heading children rest (forest_induction nil cons children) (forest_induction nil cons rest)

/-- A field of a written type. -/
def ofType (name type : String) : Declaration :=
  .node { kind := .field, name := name, shape := some (.plain type) } []

def objectOf (name : String) (fields : List Declaration) : Declaration :=
  .node { kind := .record, name := name, conformances := ["Object"] } fields

/-- A record that only groups what is nested in it. -/
def groupOf (name : String) (nested : List Declaration) : Declaration :=
  .node { kind := .record, name := name } nested

/-- An endpoint that can be read, with the fields of its body and what else is nested in it. -/
def endpointOf (name : String) (body nested : List Declaration) : Declaration :=
  let method : Initializer := { kind := .member, text := "get" }
  let path : Initializer := { kind := .string, segments := ["/"] }
  .node { kind := .record, name := name, conformances := ["Endpoint"] }
    ([.node { kind := .field, name := "method", initializer := some method } [],
      .node { kind := .field, name := "path", initializer := some path } [],
      objectOf "Header" [], objectOf "Query" [], objectOf "Body" body, objectOf "Response" []] ++
      nested)

end ApiHandbook.Source.Declaration

namespace ApiHandbook.Schema.SchemaError

/-- An error that stops a strict run. The others are only ever recorded. -/
def isFatal : SchemaError → Bool
  | duplicate _ _ | unsupported _ _ _ => false
  | _ => true

theorem isFatal_of_isUnsupported {error : SchemaError} (unsupported : error.isUnsupported = true) :
    error.isFatal = false := by
  cases error with
  | unsupported typeText declaration field => rfl
  | _ => cases unsupported

end ApiHandbook.Schema.SchemaError

namespace ApiHandbook.Extraction
open Schema Source
open Relation (ReflTransGen)

/-- The registry that a run leaves, finished or stopped. -/
def registryLeft : Except Stopped Registry → Registry
  | .ok registry => registry
  | .error stopped => stopped.registry

/-- The error that has stopped a run. -/
def stopError? : Except Stopped Registry → Option SchemaError
  | .ok _ => none
  | .error stopped => some stopped.error

/-- A run from `before` that consists of steps, and that only a fatal error can stop. -/
structure RunBy (step : Registry → Registry → Prop) (before : Registry)
    (run : Except Stopped Registry) : Prop where
  steps : ReflTransGen step before (registryLeft run)
  fatal : ∀ stopped, run = .error stopped → stopped.error.isFatal = true

section RunBy
variable {step : Registry → Registry → Prop} {before : Registry}

theorem RunBy.done (registry : Registry) : RunBy step registry (.ok registry) :=
  ⟨.refl, nofun⟩

theorem RunBy.failed {stopped : Stopped} (steps : ReflTransGen step before stopped.registry)
    (fatal : stopped.error.isFatal = true) : RunBy step before (.error stopped) := by
  refine ⟨steps, fun found stop => ?_⟩
  cases stop
  exact fatal

theorem RunBy.finished {run : Except Stopped Registry} {after : Registry}
    (made : RunBy step before run) (success : run = .ok after) : ReflTransGen step before after := by
  subst success
  exact made.steps

theorem RunBy.stopped {run : Except Stopped Registry} {stopped : Stopped}
    (made : RunBy step before run) (failure : run = .error stopped) :
    ReflTransGen step before stopped.registry := by
  subst failure
  exact made.steps

theorem RunBy.bind {run : Except Stopped Registry} {next : Registry → Except Stopped Registry}
    (first : RunBy step before run) (rest : ∀ registry, RunBy step registry (next registry)) :
    RunBy step before (run >>= next) := by
  cases run with
  | error stopped => exact first
  | ok registry => exact ⟨first.steps.trans (rest registry).steps, (rest registry).fatal⟩

theorem RunBy.tolerate {strict : Bool} {run : Except Stopped Registry}
    (recorded : strict = false → ∀ registry error, step registry (registry.record error))
    (first : RunBy step before run) : RunBy step before (tolerate strict run) := by
  cases run with
  | ok registry => exact first
  | error stopped =>
    cases strict with
    | true => exact first
    | false =>
      exact ⟨first.steps.tail (recorded rfl stopped.registry stopped.error), nofun⟩

theorem RunBy.mono {wider : Registry → Registry → Prop} {run : Except Stopped Registry}
    (made : RunBy step before run) (wide : ∀ registry next, step registry next → wider registry next) :
    RunBy wider before run :=
  ⟨ReflTransGen.mono wide _ _ made.steps, made.fatal⟩

/-- What one step keeps, any number of steps keep. -/
theorem steps_keep {invariant : Registry → Prop} {after : Registry}
    (kept : ∀ registry next, step registry next → invariant registry → invariant next)
    (steps : ReflTransGen step before after) (start : invariant before) : invariant after := by
  induction steps with
  | refl => exact start
  | tail _ last ih => exact kept _ _ last ih

theorem RunBy.growth {run : Except Stopped Registry} (made : RunBy step before run)
    (grows : ∀ registry next, step registry next → Registry.Growth registry next) :
    Registry.Growth before (registryLeft run) :=
  steps_keep (fun registry next last grown => grown.trans (grows registry next last)) made.steps
    (Registry.Growth.refl before)

end RunBy

theorem tolerate_lenient (run : Except Stopped Registry) :
    ∃ after, tolerate false run = .ok after := by
  cases run with
  | ok registry => exact ⟨registry, rfl⟩
  | error stopped => exact ⟨_, rfl⟩

theorem tolerate_strict {run : Except Stopped Registry} {after : Registry}
    (finished : tolerate true run = .ok after) : run = .ok after := by
  cases run with
  | ok registry => exact finished
  | error stopped => cases finished

/-- The types that members and cases can have: what some written type stands for, or a text. -/
def Available (rules : Rules) (registry : Registry) (type : ValueType) : Prop :=
  type = .string ∨ ∃ shape scope declaration field required,
    registry.resolveShape rules shape scope declaration field = .ok (type, required)

theorem Available.mono {rules : Rules} {before after : Registry} {type : ValueType}
    (same : Registry.SameTypes before after) (available : Available rules before type) :
    Available rules after type := by
  rcases available with text | ⟨shape, scope, declaration, field, required, resolved⟩
  · exact .inl text
  · rw [← same.resolveShape_eq] at resolved
    exact .inr ⟨shape, scope, declaration, field, required, resolved⟩

theorem resolveShape_error_fatal {registry : Registry} {rules : Rules} {shape : TypeShape}
    {scope : Option String} {declaration : String} {field : Option String} {error : SchemaError}
    (failed : registry.resolveShape rules shape scope declaration field = .error error)
    (supported : error.isUnsupported = false) : error.isFatal = true := by
  unfold Registry.resolveShape at failed
  split at failed
  · cases failed
    cases supported
  · cases failed
    cases supported
  · rcases error_of_bind failed with unresolved | ⟨type, _, made⟩
    · unfold Registry.resolve at unresolved
      dsimp only at unresolved
      split at unresolved <;> cases unresolved
      rfl
    · cases made

end ApiHandbook.Extraction
