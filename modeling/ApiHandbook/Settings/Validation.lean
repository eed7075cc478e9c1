import ApiHandbook.Settings.File
import ApiHandbook.Text.Utf8

/-!
# Validating settings

Settings are read from the entries of a mapping. All that is wrong with them is reported at once,
field by field, with the unknown keys last.
-/
namespace ApiHandbook.Settings

/-- A text; bytes have to be UTF-8. -/
def readText : Yaml.Value → Except ProblemKind (List Text.CodePoint)
  | .string text => .ok text
  | .binary bytes =>
    match Text.decodeUtf8 bytes with
    | .ok text => .ok (Text.codePoints text)
    | .error _ => .error .notText
  | _ => .error .notString

/-- Texts as they are shown: half of a surrogate pair is part of no name. -/
def readTexts (field : String) (index : Nat) : List Yaml.Value → Except (List Problem) (List String)
  | [] => .ok []
  | item :: rest =>
    match readText item, readTexts field (index + 1) rest with
    | .ok text, .ok texts => .ok (String.ofList (Text.shownText text) :: texts)
    | .ok _, .error problems => .error problems
    | .error kind, .ok _ => .error [⟨some field, some index, kind⟩]
    | .error kind, .error problems => .error (⟨some field, some index, kind⟩ :: problems)

def readKeywords (field : String) : Yaml.Value → Except (List Problem) (List String)
  | .list items | .set items => readTexts field 0 items
  | _ => .error [⟨some field, none, .notList⟩]

def readSeparator (field : String) (value : Yaml.Value) :
    Except (List Problem) (List Text.CodePoint) :=
  match readText value with
  | .ok text => .ok text
  | .error kind => .error [⟨some field, none, kind⟩]

def falseWords : List String := ["0", "off", "f", "false", "n", "no"]
def trueWords : List String := ["1", "on", "t", "true", "y", "yes"]

/-- Words for truth values, in capitals or not. -/
def boolOfWord (word : String) : Except ProblemKind Bool :=
  let word := String.ofList (word.toList.map Char.toLower)
  if falseWords.contains word then .ok false
  else if trueWords.contains word then .ok true
  else .error .unreadableBool

/-- Zero and one are truth values; other numbers of 64 bits could have been. -/
def boolOfInteger (n : Int) : Except ProblemKind Bool :=
  if n = 0 then .ok false
  else if n = 1 then .ok true
  else if Int64.minValue.toInt ≤ n ∧ n ≤ Int64.maxValue.toInt then .error .unreadableBool
  else .error .notBool

/-- Whole numbers count as integers, but for the least one of 64 bits. -/
def boolOfReal (x : Float) : Except ProblemKind Bool :=
  match Yaml.exactInteger? x with
  | some n => if n = Int64.minValue.toInt then .error .notBool else boolOfInteger n
  | none => .error .notBool

/-- A truth value written as a text. -/
def boolOfText (text : List Text.CodePoint) : Except ProblemKind Bool :=
  if Text.isBroken text then .error .notText else boolOfWord (String.ofList (Text.shownText text))

def boolOf : Yaml.Value → Except ProblemKind Bool
  | .bool value => .ok value
  | .integer n => boolOfInteger n
  | .real x => boolOfReal x
  | .string text => boolOfText text
  | .binary bytes =>
    match Text.decodeUtf8 bytes with
    | .ok word => boolOfWord (String.ofList word)
    | .error _ => .error .unreadableBool
  | _ => .error .notBool

def readBool (field : String) (value : Yaml.Value) : Except (List Problem) Bool :=
  match boolOf value with
  | .ok value => .ok value
  | .error kind => .error [⟨some field, none, kind⟩]

/-- The value of a field, the last one given, or what holds without it. -/
def readField {α : Type} (entries : List (String × Yaml.Value)) (field : String) (missing : α)
    (read : String → Yaml.Value → Except (List Problem) α) : Except (List Problem) α :=
  match entries.reverse.lookup field with
  | some value => read field value
  | none => .ok missing

def fieldNames : List String :=
  ["number_keywords", "string_keywords", "boolean_keywords", "segment_separator", "strict",
    "object_catalog"]

/-- Keys that are no field, in order of their names. -/
def unknownKeys (entries : List (String × Yaml.Value)) : List String :=
  (((entries.map (·.1)).filter (!fieldNames.contains ·)).eraseDups).mergeSort
    fun a b => decide (a ≤ b)

def problemsOf {α : Type} : Except (List Problem) α → List Problem
  | .ok _ => []
  | .error problems => problems

def ofEntries (entries : List (String × Yaml.Value)) : Except (List Problem) Settings :=
  let fresh : Settings := {}
  let numbers := readField entries "number_keywords" fresh.numberKeywords readKeywords
  let strings := readField entries "string_keywords" fresh.stringKeywords readKeywords
  let booleans := readField entries "boolean_keywords" fresh.booleanKeywords readKeywords
  let separator := readField entries "segment_separator" fresh.segmentSeparator readSeparator
  let strict := readField entries "strict" fresh.strict readBool
  let catalog := readField entries "object_catalog" fresh.objectCatalog readBool
  let unknown := (unknownKeys entries).map fun key => Problem.mk (some key) none .unknownKey
  match numbers, strings, booleans, separator, strict, catalog, unknown with
  | .ok numbers, .ok strings, .ok booleans, .ok separator, .ok strict, .ok catalog, [] =>
    .ok ⟨numbers, strings, booleans, separator, strict, catalog⟩
  | _, _, _, _, _, _, _ =>
    .error (problemsOf numbers ++ problemsOf strings ++ problemsOf booleans
      ++ problemsOf separator ++ problemsOf strict ++ problemsOf catalog ++ unknown)

/-- Settings from entries; a key that cannot be written spoils them all. -/
def ofTextEntries (entries : List (List Text.CodePoint × Yaml.Value)) :
    Except (List Problem) Settings :=
  if entries.any fun (key, _) => Text.isBroken key then .error [⟨none, none, .notText⟩]
  else ofEntries (entries.map fun (key, value) => (String.ofList (Text.shownText key), value))

def ProblemKind.text : ProblemKind → String
  | .notList => "is no list"
  | .notString => "is no text"
  | .notText => "cannot be written"
  | .notBool => "is no truth value"
  | .unreadableBool => "does not stand for a truth value"
  | .unknownKey => "is not known"

def Problem.text (problem : Problem) : String :=
  let item := match problem.item with
    | some index => s!", item {index}"
    | none => ""
  problem.field.getD "the mapping" ++ item ++ ": " ++ problem.kind.text

/-- What is said about settings with problems. -/
def Invalid.ofProblems (problems : List Problem) : Invalid where
  problems
  text := s!"{problems.length} problem(s)"
    ++ String.join (problems.map fun problem => "\n  " ++ problem.text)

end ApiHandbook.Settings
