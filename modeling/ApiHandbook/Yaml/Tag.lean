import ApiHandbook.Yaml.Scalar
import ApiHandbook.Text.Utf8

/-! # Tags, anchors and directives of a YAML text -/
namespace ApiHandbook.Yaml

def isWordChar (c : Char) : Bool := c.isAlphanum || c = '-' || c = '_'

def isUriChar (c : Char) : Bool :=
  c.isAlphanum || "-;/?:@&=+$,_.!~*'()[]".toList.contains c

/-- Bytes of a URI, with its percent escapes undone, and the characters it takes. -/
def uriBytes : List Char → Except YamlError (List UInt8 × Nat)
  | '%' :: a :: b :: rest =>
    match hexValue? a, hexValue? b with
    | some a, some b => do
      let (bytes, length) ← uriBytes rest
      return ((a * 16 + b).toUInt8 :: bytes, length + 3)
    | _, _ => .error .malformed
  | '%' :: _ => .error .malformed
  | c :: rest =>
    if isUriChar c then do
      let (bytes, length) ← uriBytes rest
      return (c.toNat.toUInt8 :: bytes, length + 1)
    else .ok ([], 0)
  | [] => .ok ([], 0)

/-- A URI; there has to be one. -/
def scanUri (text : List Char) : Except YamlError (Stretch Char) := do
  let (bytes, length) ← uriBytes text
  match Text.decodeUtf8 bytes with
  | .ok uri => if length = 0 then .error .malformed else return ⟨uri, length⟩
  | .error _ => .error .malformed

/-- The end of the text, a space or a line break. -/
def endsTag (c : Option Char) : Bool := c.all fun c => c = ' ' || isBreak c

/-- A tag as written: a shorthand with a handle, or all of it. -/
structure TagText where
  handle : Option String
  suffix : String
  deriving DecidableEq, Repr

/-- The full tag of a type that every document knows. -/
def coreTag (name : String) : String := "tag:yaml.org,2002:" ++ name

/-- The word between two exclamation marks, the first of them passed already. -/
def scanHandle (text : List Char) : Except YamlError (Stretch Char) :=
  let word := text.takeWhile isWordChar
  if text[word.length]? = some '!' then .ok ⟨'!' :: (word ++ ['!']), word.length + 1⟩
  else .error .malformed

/-- A tag behind its exclamation mark, and the characters it takes. -/
def scanTagText (text : List Char) : Except YamlError (TagText × Nat) := do
  match text with
  | '<' :: rest =>
    let uri ← scanUri rest
    if rest[uri.length]? = some '>' then
      return (⟨none, String.ofList uri.text⟩, uri.length + 2)
    else throw .malformed
  | text =>
    if endsWord text.head? then return (⟨none, "!"⟩, 0)
    else
      let word := text.takeWhile fun c => !(c = ' ' || isBreak c)
      let handle ← if word.contains '!' then scanHandle text else pure ⟨['!'], 0⟩
      let uri ← scanUri (text.drop handle.length)
      return (⟨some (String.ofList handle.text), String.ofList uri.text⟩,
        handle.length + uri.length)

def scanTag (text : List Char) : Except YamlError (TagText × Nat) := do
  let (tag, length) ← scanTagText text
  if endsTag text[length]? then return (tag, length) else throw .malformed

/-- The name of an anchor or alias, behind its mark. -/
def scanAnchor (text : List Char) : Except YamlError (String × Nat) :=
  let name := text.takeWhile isWordChar
  let next := text[name.length]?
  if !name.isEmpty && next.all (fun c => isGap c || "?:,]\x7d%@\x60".toList.contains c) then
    .ok (String.ofList name, name.length)
  else .error .malformed

inductive Directive where
  | version (major : Nat)
  | tag (handle : String) (stem : String)
  | other
  deriving DecidableEq, Repr

def spacesLength (text : List Char) : Nat := (text.takeWhile (· = ' ')).length

def decimalValue (digits : List Char) : Nat :=
  digits.foldl (fun n c => n * 10 + (c.toNat - '0'.toNat)) 0

/-- Numbers in base ten are read up to this many digits. -/
def decimalLimit : Nat := 4300

/-- A number in front of a text, and its length. -/
def scanNumber (text : List Char) : Except YamlError (Nat × Nat) :=
  let digits := text.takeWhile Char.isDigit
  if digits.isEmpty then .error .malformed
  else if digits.length > decimalLimit then .error .noValue
  else .ok (decimalValue digits, digits.length)

/-- Two numbers with a point between them. -/
def scanVersion (text : List Char) : Except YamlError (Directive × Nat) := do
  let (major, length) ← scanNumber text
  if text[length]? ≠ some '.' then throw .malformed
  let (_, more) ← scanNumber (text.drop (length + 1))
  if !endsTag text[length + 1 + more]? then throw .malformed
  return (.version major, length + 1 + more)

/-- A handle and what it stands for. -/
def scanTagDirective (text : List Char) : Except YamlError (Directive × Nat) := do
  match text with
  | '!' :: rest =>
    let handle ← if rest.head? = some ' ' then pure ⟨['!'], 0⟩ else scanHandle rest
    let spaces := spacesLength (rest.drop handle.length)
    let length := handle.length + spaces
    let stem ← scanUri (rest.drop length)
    if spaces ≠ 0 && endsTag rest[length + stem.length]? then
      return (.tag (String.ofList handle.text) (String.ofList stem.text),
        1 + length + stem.length)
    else throw .malformed
  | _ => throw .malformed

/-- A directive behind its percent sign, through the end of its line. -/
def scanDirective (text : List Char) : Except YamlError (Directive × Nat) := do
  let name := text.takeWhile isWordChar
  if name.isEmpty || !endsTag text[name.length]? then throw .malformed
  let spaces := spacesLength (text.drop name.length)
  let value := text.drop (name.length + spaces)
  let (directive, length) ←
    if name = "YAML".toList then scanVersion value
    else if name = "TAG".toList then scanTagDirective value
    else pure (Directive.other, (value.takeWhile (!isBreak ·)).length)
  let length := name.length + spaces + length
  match restOfLineLength? (text.drop length) with
  | some more => return (directive, length + more)
  | none => throw .malformed

end ApiHandbook.Yaml
