import ApiHandbook.Source.Reading.Basic
import ApiHandbook.Source.Declaration

/-!
# Reading types

Only a dotted path, a path with one optional mark, and an array of a path can be documented.
Every other type is read to its end and kept as text.
-/
namespace ApiHandbook.Source

/-- A type without its optional marks and result. -/
inductive TypeHead where
  | path (name : String)
  | array (item : TypeShape)
  | other
  deriving DecidableEq, Repr

/-- Passes over arguments between angle brackets, if there are any on the same line. -/
def skipArguments (endLine : Nat) (tokens : List Token) :
    Except SyntaxError (Advance tokens Bool) :=
  if tokens.head?.any fun token => token.reads "<" && !token.startsLine then do
    let group ← skipGroup endLine "<" ">" tokens
    return group.toAdvance.map fun _ => true
  else .ok (.stay tokens false)

/-- Takes a point and the name behind it. -/
def acceptPointName? (tokens : List Token) : Option (Reading tokens String) := do
  let point ← accept? "." tokens
  let name ← acceptName? point.rest
  return (name.map (·.text)).behind point.tail

/-- Reads on behind the first name of a path: arguments between angle brackets, and further names
behind points. Tells whether there were arguments. -/
def readPath (endLine : Nat) (tokens : List Token) :
    Except SyntaxError (Advance tokens (Bool × List String)) := do
  let arguments ← skipArguments endLine tokens
  match acceptPointName? arguments.rest with
  | none => return arguments.map (·, [])
  | some name =>
    have := name.shorter
    have := arguments.tail.length_le
    let further ← readPath endLine name.rest
    return (further.behind (name.tail.trans arguments.tail)).map fun (generic, names) =>
      (arguments.value || generic, name.value :: names)
termination_by tokens.length

/-- A mark that makes a type optional. -/
def Token.isOptionalMark (token : Token) : Bool :=
  (token.reads "?" || token.reads "!") && !token.startsLine

def existentialWords : List String := ["some", "any", "inout"]

/-- The shape of a type given its head and the number of optional marks behind it. -/
def TypeHead.shape (head : TypeHead) (marks : Nat) (text : String) : TypeShape :=
  match head, marks with
  | .path name, 0 => .plain name
  | .path name, 1 => .optional name
  | .array ⟨.plain, some name, _⟩, 0 => .array name
  | _, _ => .unsupported text

mutual

def readShape (endLine : Nat) (tokens : List Token) :
    Except SyntaxError (Reading tokens TypeShape) := do
  let head ← readTypeHead endLine tokens
  let marks := passWhile Token.isOptionalMark head.rest
  match accept? "->" marks.rest with
  | none =>
    return Advance.after head
      (marks.map fun count => head.value.shape count (textBefore marks.rest tokens))
  | some arrow =>
    have := head.shorter
    have := marks.tail.length_le
    have := arrow.shorter
    let result ← readShape endLine arrow.rest
    return (result.behind (arrow.tail.trans (marks.tail.trans head.tail))).map fun _ =>
      .unsupported (textBefore result.rest tokens)
termination_by 2 * tokens.length + 1

def readTypeHead (endLine : Nat) :
    (tokens : List Token) → Except SyntaxError (Reading tokens TypeHead)
  | [] => .error ⟨.expectedType (foundAt []), endLine⟩
  | token :: rest =>
    have tail := List.suffix_cons token rest
    if token.reads "[" then do
      let item ← readShape endLine rest
      match accept? ":" item.rest with
      | none =>
        let close ← expect endLine "]" item.rest
        return (close.behind (item.tail.trans tail)).map fun _ => .array item.value
      | some colon =>
        have := item.shorter
        have := colon.shorter
        let value ← readShape endLine colon.rest
        let close ← expect endLine "]" value.rest
        return (close.behind (value.tail.trans (colon.tail.trans (item.tail.trans tail)))).map
          fun _ => .other
    else if token.reads "(" then do
      let group ← skipParentheses endLine (token :: rest)
      return group.map fun _ => .other
    else if token.kind ≠ .name then .error ⟨.expectedType token.text, token.line⟩
    else if existentialWords.contains token.text then do
      let inner ← readTypeHead endLine rest
      return (inner.behind tail).map fun _ => .other
    else do
      let path ← readPath endLine rest
      return Advance.after (Reading.one () token rest) (path.map fun (generic, names) =>
        if generic then .other else .path (".".intercalate (token.text :: names)))
termination_by tokens => 2 * tokens.length

end

end ApiHandbook.Source
