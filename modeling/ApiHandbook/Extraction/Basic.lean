import ApiHandbook.Registry.Basic

/-!
# Steps of extraction

A step takes a registry on. When it fails, what has been registered until then stays.
-/
namespace ApiHandbook.Extraction

open Schema

/-- A run that an error has stopped, with the registry as it was left. -/
structure Stopped where
  registry : Registry
  error : SchemaError
  deriving DecidableEq, Repr

/-- Outside strict runs an error is recorded and the run goes on. -/
def tolerate (strict : Bool) : Except Stopped Registry → Except Stopped Registry
  | .ok registry => .ok registry
  | .error stopped =>
    if strict then .error stopped else .ok (stopped.registry.record stopped.error)

end ApiHandbook.Extraction
