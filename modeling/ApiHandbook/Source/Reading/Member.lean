import ApiHandbook.Source.Reading.Shape
import ApiHandbook.Source.Reading.Initializer

/-!
# Reading declarations

Types with their members, fields and cases are read into a tree. Functions, protocols,
extensions, aliases and imports are passed over, and so is whatever starts with a token that
begins no declaration.
-/
namespace ApiHandbook.Source

def modifierWords : List String :=
  ["public", "private", "fileprivate", "internal", "open", "static", "final", "lazy", "weak",
    "unowned", "override", "mutating", "nonmutating", "indirect", "required", "convenience",
    "dynamic", "optional", "package", "nonisolated"]

/-- Words behind which `class` is a modifier and not the start of a type. -/
def memberWords : List String := ["var", "let", "func", "subscript", "init"]

/-- What a leading word announces. -/
inductive Keyword where
  | record | sum | binding | case | typeToSkip | functionToSkip | lineToSkip
  deriving DecidableEq, Repr

def Keyword.ofWord? (word : String) : Option Keyword :=
  if ["struct", "class", "actor"].contains word then some .record
  else if word = "enum" then some .sum
  else if ["let", "var"].contains word then some .binding
  else if word = "case" then some .case
  else if ["protocol", "extension"].contains word then some .typeToSkip
  else if ["func", "init", "deinit", "subscript"].contains word then some .functionToSkip
  else if ["typealias", "associatedtype", "import"].contains word then some .lineToSkip
  else none

/-- Passes over attributes and the arguments they take on the same line. -/
def skipAttributes (endLine : Nat) (tokens : List Token) :
    Except SyntaxError (Advance tokens Unit) :=
  match accept? "@" tokens with
  | none => .ok (.stay tokens ())
  | some sign => do
    let name ← expectName endLine sign.rest
    have := sign.shorter
    have := name.shorter
    have tail := name.tail.trans sign.tail
    if name.rest.head?.any fun token => token.reads "(" && !token.startsLine then
      let group ← skipParentheses endLine name.rest
      have := group.shorter
      return (← skipAttributes endLine group.rest).behind (group.tail.trans tail)
    else return (← skipAttributes endLine name.rest).behind tail
termination_by tokens.length

/-- Whether the next word is a modifier, judged by the token behind it. -/
def isAtModifier : List Token → Bool
  | word :: rest =>
    word.kind = .name &&
      if word.text = "class" then (memberWords ++ modifierWords).contains (textAt rest)
      else modifierWords.contains word.text &&
        rest.head?.any fun next => next.kind = .name || next.reads "("
  | [] => false

/-- Reads modifiers; one may carry an argument in parentheses. -/
def readModifiers (endLine : Nat) (tokens : List Token) :
    Except SyntaxError (Advance tokens (List String)) :=
  if isAtModifier tokens then
    match acceptName? tokens with
    | none => .ok (.stay tokens [])
    | some word => do
      have := word.shorter
      if isAt "(" word.rest then
        let group ← skipParentheses endLine word.rest
        have := group.shorter
        let further ← readModifiers endLine group.rest
        return (further.behind (group.tail.trans word.tail)).map (word.value.text :: ·)
      else
        let further ← readModifiers endLine word.rest
        return (further.behind word.tail).map (word.value.text :: ·)
  else .ok (.stay tokens [])
termination_by tokens.length

/-- Reads the type behind a colon, if there is a colon. -/
def readTypeClause (endLine : Nat) (tokens : List Token) :
    Except SyntaxError (Advance tokens (Option TypeShape)) :=
  match accept? ":" tokens with
  | none => .ok (.stay tokens none)
  | some colon => do
    let shape ← readShape endLine colon.rest
    return (shape.behind colon.tail).toAdvance.map some

/-- Reads the value behind an equals sign, if there is one. -/
def readAssignment (endLine : Nat) (tokens : List Token) :
    Except SyntaxError (Advance tokens (Option Initializer)) :=
  match accept? "=" tokens with
  | none => .ok (.stay tokens none)
  | some equals => do
    let value ← readInitializer endLine equals.rest
    return (value.behind equals.tail).toAdvance.map some

/-- Passes over a block behind a field. A block without an initial value computes the field,
unless it observes it. -/
def skipAccessors (endLine : Nat) (hasValue : Bool) (tokens : List Token) :
    Except SyntaxError (Advance tokens Bool) :=
  if isAt openBrace tokens then do
    let block ← skipBraces endLine tokens
    let observes := ["willSet", "didSet"].contains (textAt tokens.tail)
    return block.toAdvance.map fun _ => !hasValue && !observes
  else .ok (.stay tokens false)

/-- Reads the name of a field, or passes over a tuple of names. -/
def readBindingName (endLine : Nat) (tokens : List Token) :
    Except SyntaxError (Reading tokens (Option String)) :=
  match acceptName? tokens with
  | some name => .ok (name.map (some ·.text))
  | none =>
    if isAt "(" tokens then do
      return (← skipParentheses endLine tokens).map fun _ => none
    else .error ⟨.expectedBinding (textAt tokens), lineAt endLine tokens⟩

/-- Reads one field; a tuple and a computed field give none. -/
def readBinding (endLine : Nat) (modifiers : List String) (comment : String)
    (tokens : List Token) : Except SyntaxError (Reading tokens (List Declaration)) := do
  let name ← readBindingName endLine tokens
  let shape ← readTypeClause endLine name.rest
  let value ← readAssignment endLine shape.rest
  let computed ← skipAccessors endLine value.value.isSome value.rest
  let field (name : String) : Declaration := .node
    { kind := .field, name, modifiers, comment, shape := shape.value, initializer := value.value,
      line := some (lineAt endLine tokens) } []
  return Advance.after name ((computed.behind (value.tail.trans shape.tail)).map fun computed =>
    if computed then [] else name.value.toList.map field)

/-- Reads the fields of one declaration, separated by commas. -/
def readBindings (endLine : Nat) (modifiers : List String) (comment : String)
    (tokens : List Token) : Except SyntaxError (Reading tokens (List Declaration)) := do
  let binding ← readBinding endLine modifiers comment tokens
  match accept? "," binding.rest with
  | none => return binding
  | some comma =>
    have := binding.shorter
    have := comma.shorter
    let further ← readBindings endLine modifiers comment comma.rest
    return (further.behind (comma.tail.trans binding.tail)).map (binding.value ++ ·)
termination_by tokens.length

/-- Takes the label of a parameter with its colon; of two names the second is the label. -/
def acceptLabel? (tokens : List Token) : Option (Reading tokens String) := do
  let first ← acceptName? tokens
  match accept? ":" first.rest with
  | some colon => return (colon.behind first.tail).map fun _ => first.value.text
  | none =>
    let second ← acceptName? first.rest
    let colon ← accept? ":" second.rest
    return (colon.behind (second.tail.trans first.tail)).map fun _ => second.value.text

/-- Reads a label, if there is one. An underscore is no label. -/
def readLabel (tokens : List Token) : Advance tokens (Option String) :=
  match acceptLabel? tokens with
  | some label => label.toAdvance.map fun text => if text = "_" then none else some text
  | none => .stay tokens none

/-- Reads the parameters of a case up to the closing parenthesis. -/
def readParameters (endLine : Nat) (tokens : List Token) :
    Except SyntaxError (Reading tokens (List CaseParameter)) :=
  match accept? ")" tokens with
  | some close => .ok (close.map fun _ => [])
  | none => do
    let label := readLabel tokens
    let shape ← readShape endLine label.rest
    have := label.tail.length_le
    have := shape.shorter
    let value ← readAssignment endLine shape.rest
    have := value.tail.length_le
    have tail := value.tail.trans (shape.tail.trans label.tail)
    let add : List CaseParameter → List CaseParameter := (⟨label.value, shape.value⟩ :: ·)
    match accept? "," value.rest with
    | some comma =>
      have := comma.shorter
      let further ← readParameters endLine comma.rest
      return (further.behind (comma.tail.trans tail)).map add
    | none =>
      match accept? ")" value.rest with
      | some close => return (close.behind tail).map fun _ => add []
      | none => throw ⟨.expectedMark ")" (textAt value.rest), lineAt endLine value.rest⟩
termination_by tokens.length

/-- Reads the parameters of a case, if it has any. -/
def readCaseParameters (endLine : Nat) (tokens : List Token) :
    Except SyntaxError (Advance tokens (List CaseParameter)) :=
  match accept? "(" tokens with
  | none => .ok (.stay tokens [])
  | some start => do
    return ((← readParameters endLine start.rest).behind start.tail).toAdvance

/-- Reads the cases of one declaration, separated by commas. The comment goes to the first. -/
def readCases (endLine : Nat) (comment : String) (tokens : List Token) :
    Except SyntaxError (Reading tokens (List Declaration)) := do
  let name ← expectName endLine tokens
  let parameters ← readCaseParameters endLine name.rest
  let value ← readAssignment endLine parameters.rest
  let case : Declaration := .node
    { kind := .case, name := name.value.text, comment, parameters := parameters.value,
      line := some name.value.line } []
  have tail := value.tail.trans parameters.tail
  match accept? "," value.rest with
  | none => return Advance.after name ((value.behind parameters.tail).map fun _ => [case])
  | some comma =>
    have := name.shorter
    have := tail.length_le
    have := comma.shorter
    let further ← readCases endLine "" comma.rest
    return (further.behind (comma.tail.trans (tail.trans name.tail))).map (case :: ·)
termination_by tokens.length

/-- The number of tokens of a conformance: up to a comma, a brace or `where` outside angle
brackets. -/
def conformanceLength (depth : Int) : List Token → Nat
  | [] => 0
  | token :: rest =>
    if depth = 0 && [",", openBrace, "where"].contains token.text then 0
    else if token.text = "<" then conformanceLength (depth + 1) rest + 1
    else if token.text = ">" then conformanceLength (depth - 1) rest + 1
    else conformanceLength depth rest + 1

def readConformances (tokens : List Token) : Advance tokens (List String) :=
  let length := conformanceLength 0 tokens
  let conformance : Advance tokens String :=
    ⟨joinTexts (tokens.take length), tokens.drop length, List.drop_suffix length tokens⟩
  match accept? "," conformance.rest with
  | none => conformance.map ([·])
  | some comma =>
    have := conformance.tail.length_le
    have := comma.shorter
    ((readConformances comma.rest).behind (comma.tail.trans conformance.tail)).map
      (conformance.value :: ·)
termination_by tokens.length

/-- A type declaration between its keyword and its body: name and conformances. Parameters and
constraints are passed over. -/
def readTypeHeader (endLine : Nat) (tokens : List Token) :
    Except SyntaxError (Reading tokens (String × List String)) := do
  let name ← expectName endLine tokens
  let parameters ←
    if isAt "<" name.rest then (·.toAdvance) <$> skipGroup endLine "<" ">" name.rest
    else pure (.stay name.rest ())
  let conformances :=
    match accept? ":" parameters.rest with
    | none => Advance.stay parameters.rest []
    | some colon => (readConformances colon.rest).behind colon.tail
  let constraints :=
    if isAt "where" conformances.rest then
      (passWhile (!·.reads openBrace) conformances.rest).map fun _ => ()
    else .stay conformances.rest ()
  return Advance.after name ((constraints.behind (conformances.tail.trans parameters.tail)).map
    fun _ => (name.value.text, conformances.value))

/-- Passes over a type that is not documented, with its body. -/
def skipType (endLine : Nat) (tokens : List Token) : Except SyntaxError (Advance tokens Unit) :=
  let header := passWhile (!·.reads openBrace) tokens
  if header.rest.isEmpty then .error ⟨.endBefore openBrace, endLine⟩
  else do return (← skipBraces endLine header.rest).toAdvance.behind header.tail

/-- Words that go on with a function's header on a new line. -/
def headerWords : List String := ["->", "throws", "rethrows", "async", "where"]

/-- Passes over a function: through its body, or without one to the end of its header. `depth`
counts open brackets; `closed` tells that the parameters have ended. -/
def skipFunction (endLine : Nat) (depth : Int) (closed : Bool) :
    (tokens : List Token) → Except SyntaxError (Advance tokens Unit)
  | [] => .ok (.stay [] ())
  | token :: rest =>
    have tail := List.suffix_cons token rest
    if depth = 0 && token.isMark openBrace then do
      return (← skipBraces endLine (token :: rest)).toAdvance
    else if depth = 0 && (token.isMarkIn [closeBrace, ";"]
        || closed && token.startsLine && !headerWords.contains token.text) then
      .ok (.stay (token :: rest) ())
    else if token.isMarkIn ["(", "["] then do
      return (← skipFunction endLine (depth + 1) closed rest).behind tail
    else if token.isMarkIn [")", "]"] then do
      return (← skipFunction endLine (depth - 1) (closed || depth = 1) rest).behind tail
    else do
      return (← skipFunction endLine depth closed rest).behind tail

/-- Passes over what is left of a line. -/
def skipLine (tokens : List Token) : Advance tokens Unit :=
  (passWhile (fun token => !token.startsLine && !token.reads closeBrace) tokens).map fun _ => ()

mutual

/-- Reads one member; what is passed over gives none. -/
def readMember (endLine : Nat) (tokens : List Token) (more : tokens ≠ []) :
    Except SyntaxError (Reading tokens (List Declaration)) := do
  let comment := "\n".intercalate ((tokens.head more).comments)
  let attributes ← skipAttributes endLine tokens
  let modifiers ← readModifiers endLine attributes.rest
  have tail := modifiers.tail.trans attributes.tail
  have := tail.length_le
  match h : modifiers.rest with
  | [] => return ⟨[], [], List.nil_suffix, List.length_pos_iff.2 more⟩
  | keyword :: rest =>
    have tail : keyword :: rest <:+ tokens := h ▸ tail
    have := tail.length_le
    let taken : Reading tokens Unit := (Reading.one () keyword rest).behind tail
    if keyword.reads openBrace then
      return ((← skipBraces endLine (keyword :: rest)).behind tail).map fun _ => []
    else if keyword.kind ≠ .name then return taken.map fun _ => []
    else
      match Keyword.ofWord? keyword.text with
      | some .record =>
        return ((← readType endLine .record modifiers.value comment keyword.line rest).behind
          taken.tail).map ([·])
      | some .sum =>
        return ((← readType endLine .sum modifiers.value comment keyword.line rest).behind
          taken.tail).map ([·])
      | some .binding =>
        return (← readBindings endLine modifiers.value comment rest).behind taken.tail
      | some .case => return (← readCases endLine comment rest).behind taken.tail
      | some .typeToSkip =>
        return Advance.after taken ((← skipType endLine rest).map fun _ => [])
      | some .functionToSkip =>
        return Advance.after taken ((← skipFunction endLine 0 false rest).map fun _ => [])
      | some .lineToSkip => return Advance.after taken ((skipLine rest).map fun _ => [])
      | none => return taken.map fun _ => []
termination_by 2 * tokens.length

def readType (endLine : Nat) (kind : DeclarationKind) (modifiers : List String)
    (comment : String) (line : Nat) (tokens : List Token) :
    Except SyntaxError (Reading tokens Declaration) := do
  let header ← readTypeHeader endLine tokens
  let start ← expect endLine openBrace header.rest
  have := header.shorter
  have := start.shorter
  let body ← readBody endLine start.rest
  return (body.behind (start.tail.trans header.tail)).map (.node
    { kind, name := header.value.1, conformances := header.value.2, modifiers, comment,
      line := some line })
termination_by 2 * tokens.length

/-- Reads members up to the closing brace. -/
def readBody (endLine : Nat) (tokens : List Token) :
    Except SyntaxError (Reading tokens (List Declaration)) :=
  match accept? closeBrace tokens with
  | some close => .ok (close.map fun _ => [])
  | none =>
    if more : tokens = [] then .error ⟨.endBefore closeBrace, endLine⟩
    else do
      let member ← readMember endLine tokens more
      have := member.shorter
      let further ← readBody endLine member.rest
      return (further.behind member.tail).map (member.value ++ ·)
termination_by 2 * tokens.length + 1

end

/-- Reads members to the end of the text. -/
def readDeclarations (endLine : Nat) (tokens : List Token) :
    Except SyntaxError (List Declaration) :=
  if more : tokens = [] then .ok []
  else if textAt tokens = closeBrace then .error ⟨.unbalanced closeBrace, lineAt endLine tokens⟩
  else do
    let member ← readMember endLine tokens more
    have := member.shorter
    let further ← readDeclarations endLine member.rest
    return member.value ++ further
termination_by tokens.length

/-- The declarations of a source text. -/
def parse (text : List Char) : Except SyntaxError (List Declaration) := do
  let stream ← tokenize text
  readDeclarations stream.endLine stream.tokens

end ApiHandbook.Source
