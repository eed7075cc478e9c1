import ApiHandbook.Text.Blank
import ApiHandbook.Text.NameChar
import ApiHandbook.Text.Split
import ApiHandbook.Yaml.Tag

/-!
# Numbers of a YAML text

What the text of a number stands for. Underscores count for nothing, parts between colons are
digits in base sixty, and the digits of every script are known. White space around a part is passed
over.
-/
namespace ApiHandbook.Yaml

open Text (splitOn)

/-- A sign, if there is one, and the text behind it. -/
def splitSign (text : List Char) : Bool × List Char :=
  match text with
  | '-' :: rest => (true, rest)
  | '+' :: rest => (false, rest)
  | text => (false, text)

/-- White space around a number. Of ASCII, the separator controls are none. -/
def isPadding (c : Char) : Bool :=
  if c < '\x7f' then c = ' ' || '\t' ≤ c && c ≤ '\r' else Text.isBlank c

def trimPadding (text : List Char) : List Char :=
  ((text.dropWhile isPadding).reverse.dropWhile isPadding).reverse

/-! ## Integers -/

inductive Radix where
  | binary | octal | decimal | hexadecimal
  deriving DecidableEq, Repr

namespace Radix

def base : Radix → Nat
  | .binary => 2
  | .octal => 8
  | .decimal => 10
  | .hexadecimal => 16

/-- The letter that may stand behind a leading zero. -/
def mark : Radix → Option Char
  | .binary => some 'b'
  | .octal => some 'o'
  | .decimal => none
  | .hexadecimal => some 'x'

end Radix

def digitValue? (c : Char) : Option Nat := Text.decimalValue? c <|> hexValue? c

/-- The number that digits spell in a base; none if one is no digit of it. -/
def digitsValue? (base : Nat) (digits : List Char) : Option Nat :=
  if digits.isEmpty then none
  else digits.foldlM (fun n c => do
    let digit ← digitValue? c
    guard (digit < base)
    return n * base + digit) 0

/-- The digits behind a zero and the letter of the radix, if they stand there. -/
def dropMark (radix : Radix) : List Char → List Char
  | '0' :: c :: rest => if radix.mark = some c.toLower then rest else '0' :: c :: rest
  | text => text

/-- The integer of digits with a sign and the mark of their radix, both optional. -/
def integerIn? (radix : Radix) (text : List Char) : Option Int :=
  let (negative, unsigned) := splitSign (trimPadding text)
  let digits := dropMark radix unsigned
  if radix = .decimal && digits.length > decimalLimit then none
  else (digitsValue? radix.base digits).map fun n => if negative then -(n : Int) else n

/-- The integer of parts in base sixty, most often of a single one. -/
def sixtiesInteger? (text : List Char) : Option Int :=
  (splitOn ':' text).foldlM (fun n part => do return n * 60 + (← integerIn? .decimal part)) 0

/-- A leading zero tells the radix. -/
def unsignedInteger? : List Char → Option Int
  | ['0'] => some 0
  | '0' :: 'b' :: digits => integerIn? .binary digits
  | '0' :: 'x' :: digits => integerIn? .hexadecimal digits
  | '0' :: digits => integerIn? .octal ('0' :: digits)
  | text => sixtiesInteger? text

def integerValue (text : List Char) : Except YamlError Int :=
  let text := text.filter (· ≠ '_')
  let (negative, unsigned) := splitSign text
  if unsigned.isEmpty then .error .emptyNumber
  else
    match unsignedInteger? unsigned with
    | some n => .ok (if negative then -n else n)
    | none => .error .noValue

/-! ## Reals -/

/-- The nearest double of `digits` times a power of ten. -/
def scaledReal (digits : Nat) (length : Nat) (exponent : Int) : Float :=
  if digits = 0 then 0.0
  else if exponent > 400 then 1.0 / 0.0
  else if exponent < 0 then
    if (-exponent).toNat > length + 400 then 0.0
    else Float.ofScientific digits true (-exponent).toNat
  else Float.ofScientific digits false exponent.toNat

/-- The value of digits with a point and an exponent, both optional. -/
def decimalReal? (text : List Char) : Option Float := do
  let whole := text.takeWhile Char.isDigit
  let text := text.drop whole.length
  let (fraction, text) := match text with
    | '.' :: rest => (rest.takeWhile Char.isDigit, rest.dropWhile Char.isDigit)
    | text => ([], text)
  guard (!(whole ++ fraction).isEmpty)
  let exponent ← match text with
    | [] => some 0
    | e :: rest => do
      guard (e = 'e' || e = 'E')
      let (negative, digits) := splitSign rest
      guard (!digits.isEmpty && digits.all Char.isDigit)
      let n : Int := decimalValue digits
      pure (if negative then -n else n)
  let digits := whole ++ fraction
  return scaledReal (decimalValue digits) digits.length (exponent - fraction.length)

/-- A decimal digit of any script as one of ASCII. -/
def plainDigit (c : Char) : Char :=
  match Text.decimalValue? c with
  | some digit => Char.ofNat ('0'.toNat + digit)
  | none => c

/-- The double of a decimal number or of a word, with a sign if there is one. -/
def realOf? (text : List Char) : Option Float :=
  let (negative, unsigned) := splitSign (trimPadding text)
  let word := String.ofList (unsigned.map Char.toLower)
  let magnitude :=
    if word = "inf" || word = "infinity" then some (1.0 / 0.0)
    else if word = "nan" then some (0.0 / 0.0)
    else decimalReal? (unsigned.map plainDigit)
  magnitude.map fun x => if negative then -x else x

/-- The sum of digits in base sixty, the last of them first. There is no double beyond the power
1024 of two. -/
def sumSixties (power : Nat) (sum : Float) : List Float → Except YamlError Float
  | [] => .ok sum
  | digit :: rest =>
    if power.log2 ≥ 1024 then .error .tooLarge
    else sumSixties (power * 60) (sum + digit * Float.ofScientific power false 0) rest

/-- A double, or the word that stands for none: unlike a double that is no number, it is equal to
itself. -/
inductive RealValue where
  | number (value : Float)
  | notANumber

def realValue (text : List Char) : Except YamlError RealValue :=
  let text := (text.filter (· ≠ '_')).map Char.toLower
  let (negative, unsigned) := splitSign text
  let signed (x : Float) : RealValue := .number (if negative then -x else x)
  if text.isEmpty then .error .emptyNumber
  else if unsigned = ".inf".toList then .ok (signed (1.0 / 0.0))
  else if unsigned = ".nan".toList then .ok .notANumber
  else
    match (splitOn ':' unsigned).mapM realOf? with
    | none => .error .noValue
    | some [x] => .ok (signed x)
    | some digits => signed <$> sumSixties 1 0.0 digits.reverse

/-- The integer that a double equals, if there is one. -/
def exactInteger? (x : Float) : Option Int :=
  let bits := x.toBits.toNat
  let exponent := (bits >>> 52) % 2048
  let fraction := bits % (1 <<< 52)
  let mantissa := if exponent = 0 then fraction else fraction + (1 <<< 52)
  let magnitude : Option Nat :=
    if exponent = 2047 then none
    else if exponent ≥ 1075 then some (mantissa <<< (exponent - 1075))
    else
      let scale := 1 <<< (1075 - max exponent 1)
      if mantissa % scale = 0 then some (mantissa / scale) else none
  magnitude.map fun n => if bits >>> 63 = 1 then -(n : Int) else n

end ApiHandbook.Yaml
