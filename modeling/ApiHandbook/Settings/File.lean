import ApiHandbook.Files.Path
import ApiHandbook.Settings.Basic
import ApiHandbook.Text.Utf8
import ApiHandbook.Yaml.Error
import ApiHandbook.Yaml.Value

/-!
# Settings files

Settings are written in YAML. The YAML library and the one that validates settings are parameters of
loading.
-/
namespace ApiHandbook.Settings

open Files

inductive ProblemKind where
  | notList | notString | notText | notBool | unreadableBool | unknownKey
  deriving DecidableEq, Repr

/-- What is wrong with a field, with the item of a list, or with all of the mapping. -/
structure Problem where
  field : Option String
  item : Option Nat := none
  kind : ProblemKind
  deriving DecidableEq, Repr

/-- What validation finds wrong, and how it says so. -/
structure Invalid where
  problems : List Problem
  text : String
  deriving DecidableEq, Repr

/-- The libraries that settings are loaded with. -/
structure Library where
  /-- The value of a YAML text. -/
  yaml : List Char → Except Yaml.Fault Yaml.Value
  /-- The settings that named values are valid as. -/
  validate : List (List Text.CodePoint × Yaml.Value) → Except Invalid Settings

/-- Why settings cannot be loaded. -/
inductive LoadError where
  | unreadable (path : Path) (fault : FileFault)
  | notYaml (path : Path) (reason : String)
  | notMapping (path : Path)
  | invalid (path : Path) (fault : Invalid)
  /-- No file can have the name that is given. -/
  | zeroInPath
  /-- The file is not UTF-8. -/
  | undecodable (fault : Text.Utf8Fault)
  /-- A key is no text. -/
  | keyNotText
  /-- The YAML library broke off. -/
  | brokenOff (error : Yaml.YamlError)
  deriving DecidableEq, Repr

/-- What a failed load says. Some failures escape, and have nothing to say. -/
def LoadError.message? : LoadError → Option String
  | .unreadable path fault =>
    some ("cannot read config " ++ path.text ++ ": " ++ fault.message path)
  | .notYaml path reason => some ("invalid YAML in " ++ path.text ++ ": " ++ reason)
  | .notMapping path => some ("config " ++ path.text ++ " must be a mapping")
  | .invalid path fault => some ("invalid config " ++ path.text ++ ": " ++ fault.text)
  | .zeroInPath | .undecodable _ | .keyNotText | .brokenOff _ => none

/-- A YAML text that has no value. -/
def LoadError.ofFault (path : Path) : Yaml.Fault → LoadError
  | .malformed reason => .notYaml path reason
  | .escaping error => .brokenOff error

/-- Entries whose keys are all texts. -/
def textEntries? : List (Yaml.Value × Yaml.Value) →
    Option (List (List Text.CodePoint × Yaml.Value))
  | [] => some []
  | (.string key, value) :: rest => (textEntries? rest).map ((key, value) :: ·)
  | _ => none

/-- Settings from the value of a document. Entries are named, so their keys have to be texts. -/
def ofValue (library : Library) (path : Path) : Yaml.Value → Except LoadError Settings
  | .null => (library.validate []).mapError (.invalid path)
  | .mapping entries =>
    match textEntries? entries with
    | none => .error .keyNotText
    | some entries => (library.validate entries).mapError (.invalid path)
  | _ => .error (.notMapping path)

/-- The settings in a file, given what reading it has brought. -/
def load (library : Library) (path : Path) (content : Except FileFault (List UInt8)) :
    Except LoadError Settings := do
  if path.hasZero then throw .zeroInPath
  let bytes ← content.mapError (.unreadable path)
  let text ← (Text.decodeUtf8 bytes).mapError .undecodable
  let value ← (library.yaml (Text.unifyLineEnds text)).mapError (.ofFault path)
  ofValue library path value

end ApiHandbook.Settings
