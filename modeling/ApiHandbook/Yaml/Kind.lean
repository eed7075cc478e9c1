import ApiHandbook.Yaml.Number
import ApiHandbook.Yaml.Timestamp

/-!
# Kinds of nodes

A node's tag tells what it stands for. A plain scalar without a tag is told by the form of its
text; a line feed at the end of the text does not count.
-/
namespace ApiHandbook.Yaml

open Text (splitOn)

inductive Kind where
  | null | bool | integer | real | timestamp | binary | string
  | list | mapping | set | pairs
  /-- A key that brings in the entries of other mappings. -/
  | merge
  /-- A key whose value stands for the mapping where a scalar is wanted. -/
  | default
  /-- There is nothing that such a node could stand for. -/
  | unknown
  deriving DecidableEq, Repr

def coreKinds : List (String × Kind) :=
  [("null", .null), ("bool", .bool), ("int", .integer), ("float", .real),
    ("timestamp", .timestamp), ("binary", .binary), ("str", .string), ("seq", .list),
    ("map", .mapping), ("set", .set), ("omap", .pairs), ("pairs", .pairs), ("merge", .merge),
    ("value", .default)]

def Kind.ofTag (tag : String) : Kind :=
  match coreKinds.find? fun (name, _) => coreTag name = tag with
  | some (_, kind) => kind
  | none => .unknown

/-! ## Forms of plain scalars -/

def nullWords : List String := ["", "~", "null", "Null", "NULL"]

def boolWords : List (String × Bool) :=
  [("yes", true), ("Yes", true), ("YES", true), ("no", false), ("No", false), ("NO", false),
    ("true", true), ("True", true), ("TRUE", true), ("false", false), ("False", false),
    ("FALSE", false), ("on", true), ("On", true), ("ON", true), ("off", false), ("Off", false),
    ("OFF", false)]

def isDigitOr_ (c : Char) : Bool := c.isDigit || c = '_'

/-- Parts of a number in base sixty behind its first: one digit, or two that stay below sixty. -/
def isSixtieth : List Char → Bool
  | [d] => d.isDigit
  | [d, e] => '0' ≤ d && d ≤ '5' && e.isDigit
  | _ => false

/-- Digits and underscores that start with a digit. -/
def isDigits : List Char → Bool
  | c :: rest => c.isDigit && rest.all isDigitOr_
  | [] => false

def isIntegerForm (text : List Char) : Bool :=
  match (splitSign text).2 with
  | '0' :: 'b' :: digits => !digits.isEmpty && digits.all fun c => c = '0' || c = '1' || c = '_'
  | '0' :: 'x' :: digits =>
    !digits.isEmpty && digits.all fun c => (hexValue? c).isSome || c = '_'
  | '0' :: digits => digits.all fun c => '0' ≤ c && c ≤ '7' || c = '_'
  | digits =>
    match splitOn ':' digits with
    | first :: parts => isDigits first && parts.all isSixtieth
    | [] => false

/-- An exponent: its letter, a sign and digits. -/
def isExponent : List Char → Bool
  | e :: s :: digits =>
    (e = 'e' || e = 'E') && (s = '-' || s = '+') && !digits.isEmpty && digits.all Char.isDigit
  | _ => false

/-- Digits behind a point, with an exponent or without. -/
def isFraction (text : List Char) : Bool :=
  let rest := text.dropWhile isDigitOr_
  rest.isEmpty || isExponent rest

def isRealForm (text : List Char) : Bool :=
  let unsigned := (splitSign text).2
  let whole := unsigned.takeWhile (· ≠ '.')
  match unsigned.drop whole.length with
  | '.' :: fraction =>
    isDigits whole && isFraction fraction
      || whole.isEmpty && text = unsigned && fraction.head?.any Char.isDigit && isFraction fraction
      || whole.isEmpty && ["inf", "Inf", "INF"].contains (String.ofList fraction)
      || text = unsigned && whole.isEmpty && ["nan", "NaN", "NAN"].contains (String.ofList fraction)
      || isBaseSixty whole && fraction.all isDigitOr_
  | _ => false
where
  isBaseSixty (whole : List Char) : Bool :=
    match splitOn ':' whole with
    | first :: second :: parts => isDigits first && (second :: parts).all isSixtieth
    | _ => false

/-- Marks that are kept for other uses when they stand alone. -/
def reservedWords : List String := ["!", "&", "*"]

/-- What a text that is no lone line feed stands for. -/
def kindOfForm (text : List Char) : Kind :=
  let word := String.ofList text
  if (boolWords.lookup word).isSome then .bool
  else if isRealForm text then .real
  else if isIntegerForm text then .integer
  else if word = "<<" then .merge
  else if nullWords.contains word then .null
  else if isTimestampForm text then .timestamp
  else if word = "=" then .default
  else if reservedWords.contains word then .unknown
  else .string

/-- What a plain scalar stands for. -/
def implicitKind (text : List Char) : Kind :=
  if text = ['\n'] then .string else kindOfForm (dropFinalBreak text)

end ApiHandbook.Yaml
