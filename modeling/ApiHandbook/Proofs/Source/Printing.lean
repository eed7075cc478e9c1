import ApiHandbook.Source.Reading.Member
import ApiHandbook.Proofs.Extraction.Basic
import ApiHandbook.Proofs.Source.Lexemes

/-!
# Printed declarations

Declarations in a canonical form and the text that is written for them: every declaration on lines
of its own, its comment above it, and the members of a type between a brace at the end of its
first line and a brace on a line of its own.
-/
namespace ApiHandbook.Source

/-! ## Canonical declarations -/

def isWord (text : String) : Bool := isIdentifier text.toList

/-- The names of a dotted path that can be written as a type. -/
structure IsTypePath (parts : List String) : Prop where
  nonempty : parts ≠ []
  words : ∀ part ∈ parts, isWord part = true
  first : ∀ part ∈ parts.head?, part ∉ existentialWords

def dotted (parts : List String) : String := ".".intercalate parts

/-- A path, an optional path or an array of a path. -/
inductive TypeShape.Canonical : TypeShape → Prop
  | plain {parts : List String} (path : IsTypePath parts) : Canonical (.plain (dotted parts))
  | optional {parts : List String} (path : IsTypePath parts) : Canonical (.optional (dotted parts))
  | array {parts : List String} (path : IsTypePath parts) : Canonical (.array (dotted parts))

/-- A whole number, a truth value, a member name, or a string literal on one line that has nothing
escaped or spliced in. -/
inductive Initializer.Canonical : Initializer → Prop
  | integer {text : String} (whole : isWholeNumber text.toList = true) :
      Canonical ⟨.integer, text, []⟩
  | boolean {text : String} (truth : text = "true" ∨ text = "false") :
      Canonical ⟨.boolean, text, []⟩
  | member {name : String} (word : isWord name = true) : Canonical ⟨.member, name, []⟩
  | string {content : String} (plain : ∀ c ∈ content.toList, c ≠ '"' ∧ c ≠ '\\' ∧ c ≠ '\n') :
      Canonical ⟨.string, "\"" ++ content ++ "\"", if content = "" then [] else [content]⟩

structure CaseParameter.Canonical (parameter : CaseParameter) : Prop where
  label : ∀ label ∈ parameter.label, isWord label = true ∧ label ≠ "_"
  shape : parameter.shape.Canonical

/-- A comment none of whose lines ends with white space. -/
def IsTidy (comment : String) : Prop :=
  ∀ line ∈ comment.toList.splitOn '\n', Text.trimEnd line = line

theorem isTidy_empty : IsTidy "" := by
  unfold IsTidy
  decide

/-- A type, field or case without the parts that only declarations of another kind have. -/
inductive Heading.Canonical (heading : Heading) : Prop
  | type (kind : heading.kind = .record ∨ heading.kind = .sum)
      (word : isWord heading.name = true)
      (conforms : ∀ other ∈ heading.conformances, isWord other = true ∧ other ≠ "where")
      (modified : ∀ modifier ∈ heading.modifiers, modifier ∈ modifierWords)
      (tidy : IsTidy heading.comment)
      (bare : heading.shape = none ∧ heading.initializer = none ∧ heading.parameters = [])
  | field (kind : heading.kind = .field) (word : isWord heading.name = true)
      (modified : ∀ modifier ∈ heading.modifiers, modifier ∈ modifierWords)
      (typed : ∀ type ∈ heading.shape, type.Canonical)
      (valued : ∀ value ∈ heading.initializer, value.Canonical)
      (tidy : IsTidy heading.comment)
      (bare : heading.conformances = [] ∧ heading.parameters = [])
  | case (kind : heading.kind = .case) (word : isWord heading.name = true)
      (payload : ∀ parameter ∈ heading.parameters, parameter.Canonical)
      (tidy : IsTidy heading.comment)
      (bare : heading.conformances = [] ∧ heading.modifiers = [] ∧ heading.shape = none ∧
        heading.initializer = none)

mutual

/-- Only types have members. -/
def Declaration.Canonical : Declaration → Prop
  | .node heading children =>
    heading.Canonical ∧ (heading.isType = true ∨ children = []) ∧ AllCanonical children

def AllCanonical : List Declaration → Prop
  | [] => True
  | declaration :: rest => declaration.Canonical ∧ AllCanonical rest

end

/-! ## Their text -/

def Initializer.written (value : Initializer) : String :=
  if value.kind = .member then "." ++ value.text else value.text

def CaseParameter.written (parameter : CaseParameter) : String :=
  parameter.label.elim "" (· ++ ": ") ++ parameter.shape.text

/-- The lines of a comment; an empty one has none. -/
def commentParts (comment : String) : List String :=
  if comment = "" then [] else (comment.toList.splitOn '\n').map String.ofList

def typeKeyword (kind : DeclarationKind) : String := if kind = .sum then "enum" else "struct"

def typeLine (heading : Heading) : String :=
  " ".intercalate (heading.modifiers ++ [typeKeyword heading.kind, heading.name]) ++
    (if heading.conformances = [] then "" else ": " ++ ", ".intercalate heading.conformances) ++
    " " ++ openBrace

def fieldLine (heading : Heading) : String :=
  " ".intercalate (heading.modifiers ++ ["let", heading.name]) ++
    heading.shape.elim "" (": " ++ ·.text) ++ heading.initializer.elim "" (" = " ++ ·.written)

def caseLine (heading : Heading) : String :=
  "case " ++ heading.name ++
    if heading.parameters = [] then ""
    else "(" ++ ", ".intercalate (heading.parameters.map (·.written)) ++ ")"

mutual

def Declaration.lines : Declaration → List String
  | .node heading children =>
    (commentParts heading.comment).map ("/// " ++ ·) ++
      match heading.kind with
      | .record | .sum => typeLine heading :: (allLines children ++ [closeBrace])
      | .field => [fieldLine heading]
      | .case => [caseLine heading]
      | .other => []

def allLines : List Declaration → List String
  | [] => []
  | declaration :: rest => declaration.lines ++ allLines rest

end

def printLines (lines : List String) : List Char := lines.flatMap fun line => line.toList ++ ['\n']

def printDeclarations (declarations : List Declaration) : List Char :=
  printLines (allLines declarations)

/-! ## The lines that declarations are read from -/

mutual

/-- The declaration with the line that it begins on behind its comment, when it is printed from
`line` on. -/
def Declaration.placed (line : Nat) : Declaration → Declaration
  | .node heading children =>
    let own := line + (commentParts heading.comment).length
    .node { heading with line := some own } (allPlaced (own + 1) children)

def allPlaced (line : Nat) : List Declaration → List Declaration
  | [] => []
  | declaration :: rest =>
    declaration.placed line :: allPlaced (line + declaration.lines.length) rest

end

mutual

/-- The declaration without line numbers. -/
def Declaration.unplaced : Declaration → Declaration
  | .node heading children => .node { heading with line := none } (allUnplaced children)

def allUnplaced : List Declaration → List Declaration
  | [] => []
  | declaration :: rest => declaration.unplaced :: allUnplaced rest

end

theorem allUnplaced_allPlaced (declarations : List Declaration) (line : Nat) :
    allUnplaced (allPlaced line declarations) = allUnplaced declarations := by
  induction declarations using Declaration.forest_induction generalizing line with
  | nil => rfl
  | cons heading children rest inner after =>
    rw [allPlaced, Declaration.placed, allUnplaced, Declaration.unplaced, inner, after, allUnplaced,
      Declaration.unplaced]

end ApiHandbook.Source
