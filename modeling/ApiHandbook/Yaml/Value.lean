import ApiHandbook.Text.Base64
import ApiHandbook.Text.CodePoint
import ApiHandbook.Yaml.Kind

/-! # Values of a YAML document -/
namespace ApiHandbook.Yaml

open Text (CodePoint shownText)

inductive Value where
  | null
  | bool (value : Bool)
  | integer (value : Int)
  | real (value : Float)
  /-- What the word for it stands for; it is equal to itself. -/
  | notANumber
  | string (text : List CodePoint)
  | binary (bytes : List UInt8)
  | timestamp (stamp : Timestamp)
  | list (items : List Value)
  | set (items : List Value)
  | mapping (entries : List (Value × Value))
  deriving Repr

namespace Value

/-- The integer that a number equals, if there is one. Truth values count as numbers. -/
def integer? : Value → Option Int
  | .bool value => some value.toInt
  | .integer n => some n
  | .real x => exactInteger? x
  | _ => none

/-- Whether two scalars are one key. Numbers are, if they are equal. -/
def isSameKey : Value → Value → Bool
  | .null, .null => true
  | .notANumber, .notANumber => true
  | .real x, .real y => x == y
  | .string text, .string other => text = other
  | .binary bytes, .binary others => bytes = others
  | .timestamp stamp, .timestamp other => stamp = other
  | a, b =>
    match a.integer?, b.integer? with
    | some m, some n => m = n
    | _, _ => false

end Value

/-! ## Values of scalars -/

def boolValue (text : List Char) : Except YamlError Bool :=
  match boolWords.lookup (String.ofList (text.map Char.toLower)) with
  | some value => .ok value
  | none => .error .notBoolean

/-- Base 64, all of it ASCII. -/
def binaryValue (text : List Char) : Except YamlError (List UInt8) :=
  match Text.decodeBase64? text, text.all (· ≤ '\x7f') with
  | some bytes, true => .ok bytes
  | _, _ => .error .malformed

def RealValue.value : RealValue → Value
  | .number x => .real x
  | .notANumber => .notANumber

/-- The value of a scalar of a kind; collections and keys of mappings are no scalars. -/
def scalarValue (kind : Kind) (text : List CodePoint) : Except YamlError Value :=
  let shown := shownText text
  match kind with
  | .null => .ok .null
  | .bool => Value.bool <$> boolValue shown
  | .integer => Value.integer <$> integerValue shown
  | .real => RealValue.value <$> realValue shown
  | .timestamp => Value.timestamp <$> timestampValue shown
  | .binary => Value.binary <$> binaryValue shown
  | .string => .ok (.string text)
  | .list | .mapping | .set | .pairs | .merge | .default | .unknown => .error .malformed

end ApiHandbook.Yaml
