/-! # What can be wrong with a YAML text -/
namespace ApiHandbook.Yaml

inductive YamlError where
  /-- The text is no YAML, or uses a tag in a way that has no meaning. -/
  | malformed
  /-- A number, date or character code has no value. -/
  | noValue
  /-- A character code or a power of sixty is beyond any range. -/
  | tooLarge
  /-- A scalar tagged as a boolean is none. -/
  | notBoolean
  /-- A scalar tagged as a number is empty. -/
  | emptyNumber
  /-- A scalar tagged as a timestamp is none. -/
  | notTimestamp
  /-- A mapping is tagged as a timestamp. -/
  | timestampOfMapping
  deriving DecidableEq, Repr

/-- Why a text is given no value. -/
inductive Fault where
  /-- The text is no YAML, for the reason that is told. -/
  | malformed (reason : String)
  /-- Its reading broke off with an error that is not about YAML. -/
  | escaping (error : YamlError)
  deriving DecidableEq, Repr

end ApiHandbook.Yaml
