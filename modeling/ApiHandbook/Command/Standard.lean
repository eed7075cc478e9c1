import ApiHandbook.Command.Arguments
import ApiHandbook.Command.Run
import ApiHandbook.Settings.Validation
import ApiHandbook.Text.ControlSequence
import ApiHandbook.Yaml.Document

/-!
# Libraries

Libraries that a command can be run with. Where there is no terminal, texts are printed without
control sequences.
-/
namespace ApiHandbook

/-- The depth to which settings look into a document: a mapping of lists. -/
def Settings.depth : Nat := 2

def Yaml.Fault.ofError : YamlError → Fault
  | .malformed => .malformed "the text is no YAML"
  | error => .escaping error

def Settings.Library.standard : Library where
  yaml text := (Yaml.parse depth text).mapError .ofError
  validate entries := (ofTextEntries entries).mapError .ofProblems

namespace Command

/-- The text as it is printed where there is no terminal. -/
def withoutControls (text : String) : String :=
  String.ofList (Text.withoutControls text.toList)

def Library.standard : Library :=
  { Settings.Library.standard with
    commandLine := Invocation.ofArguments
    shown := fun _ => withoutControls }

end Command

end ApiHandbook
