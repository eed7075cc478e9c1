import ApiHandbook.Yaml.Meaning
import ApiHandbook.Yaml.Reading

/-!
# The value of a YAML text

A text holds at most one document. Of entries with one key the last counts.
-/
namespace ApiHandbook.Yaml

/-- The value of the only document, with its collections down to a depth; without a document it is
null. -/
def parse (depth : Nat) (text : List Char) : Except YamlError Value := do
  match ← readSingle (tokenize text) with
  | some document =>
    let exploration ← Exploration.ofDocument document
    return exploration.value depth document.root
  | none => return .null

end ApiHandbook.Yaml
