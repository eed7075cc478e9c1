import ApiHandbook.Extraction.Symbols
import ApiHandbook.Extraction.OneOfs
import ApiHandbook.Extraction.Endpoints

/-!
# Extraction of a schema

Four passes fill the registry, each over the whole source before the next starts.
-/
namespace ApiHandbook.Extraction

open Schema Source

inductive Pass where
  | symbols | oneOfs | objects | endpoints
  deriving DecidableEq, Repr

def Pass.all : List Pass := [.symbols, .oneOfs, .objects, .endpoints]

def Pass.title : Pass → String
  | .symbols => "Symbol"
  | .oneOfs => "Enum"
  | .objects => "Object"
  | .endpoints => "Endpoint"

def Pass.run (rules : Rules) (strict : Bool) (source : List Declaration) (registry : Registry) :
    Pass → Except Stopped Registry
  | .symbols => .ok (collectAllSymbols none registry source)
  | .oneOfs => walkAllOneOfs rules strict none registry source
  | .objects => walkAllObjects rules strict none registry source
  | .endpoints => walkAllEndpoints rules strict none registry source

/-- The errors that a finished pass has recorded. -/
structure Report where
  pass : Pass
  errors : List SchemaError
  deriving DecidableEq, Repr

/-- A run: the reports of the finished passes, the registry as it was left, and the error that
stopped the run, if one did. -/
structure Result where
  reports : List Report
  registry : Registry
  raised : Option SchemaError
  deriving DecidableEq, Repr

def runPasses (rules : Rules) (strict : Bool) (source : List Declaration)
    (registry : Registry) : List Pass → Result
  | [] => ⟨[], registry, none⟩
  | pass :: rest =>
    match pass.run rules strict source registry with
    | .error stopped => ⟨[], stopped.registry, some stopped.error⟩
    | .ok after =>
      let run := runPasses rules strict source after rest
      let report : Report := ⟨pass, after.errors.drop registry.errors.length⟩
      { run with reports := report :: run.reports }

def extract (rules : Rules) (strict : Bool) (source : List Declaration) : Result :=
  runPasses rules strict source {} Pass.all

end ApiHandbook.Extraction
