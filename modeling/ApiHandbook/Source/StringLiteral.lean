import ApiHandbook.Source.SyntaxError

/-!
# String literals

A literal stands between single or triple double quotes. `\(` opens a splice that runs to its
matching parenthesis and may hold further literals. The parts around the splices are the
literal's segments.
-/
namespace ApiHandbook.Source

inductive Fence where
  | single | triple
  deriving DecidableEq, Repr

/-- A literal whose end has not been reached; `current` is the segment in progress, reversed. -/
structure OpenLiteral where
  fence : Fence
  line : Nat
  segments : List String := []
  current : List Char := []
  deriving DecidableEq, Repr

namespace OpenLiteral

def push (literal : OpenLiteral) (c : Char) : OpenLiteral :=
  { literal with current := c :: literal.current }

/-- Ends the segment in progress; an empty one is not kept. -/
def flush (literal : OpenLiteral) : OpenLiteral :=
  if literal.current.isEmpty then literal
  else { literal with
    segments := literal.segments ++ [String.ofList literal.current.reverse], current := [] }

end OpenLiteral

/-- A splice of a literal, inside `depth` further parentheses. -/
structure Splice where
  literal : OpenLiteral
  depth : Nat := 0
  deriving DecidableEq, Repr

inductive Place where
  | text (literal : OpenLiteral)
  | splice (splice : Splice)
  deriving DecidableEq, Repr

/-- A finished literal: its segments, its length in characters after the first quote, and the
number of line breaks in it. A line break behind a backslash is part of the escape and does not
count. -/
structure LiteralExtent where
  segments : List String
  length : Nat
  breaks : Nat
  deriving DecidableEq, Repr

/-- Reads on from a place inside the innermost literal; `outer` holds the splices around it. -/
def scanLiteral : Place → (outer : List Splice) → (length breaks line : Nat) → List Char →
    Except SyntaxError LiteralExtent
  | .text literal, _, _, _, _, [] => .error ⟨.openString, literal.line⟩
  | .splice splice, _, _, _, _, [] => .error ⟨.openSplice, splice.literal.line⟩
  | .text literal, outer, length, breaks, line, c :: rest =>
    if c = '"' then
      match literal.fence, outer, rest with
      | .single, [], _ => .ok ⟨literal.flush.segments, length + 1, breaks⟩
      | .single, splice :: outer, rest =>
        scanLiteral (.splice splice) outer (length + 1) breaks line rest
      | .triple, [], '"' :: '"' :: _ => .ok ⟨literal.flush.segments, length + 3, breaks⟩
      | .triple, splice :: outer, '"' :: '"' :: rest =>
        scanLiteral (.splice splice) outer (length + 3) breaks line rest
      | .triple, outer, rest =>
        scanLiteral (.text (literal.push c)) outer (length + 1) breaks line rest
    else if c = '\\' then
      match rest with
      | [] => .error ⟨.openString, literal.line⟩
      | '(' :: rest => scanLiteral (.splice ⟨literal.flush, 0⟩) outer (length + 2) breaks line rest
      | d :: rest =>
        scanLiteral (.text ((literal.push c).push d)) outer (length + 2) breaks line rest
    else if c = '\n' then
      if literal.fence = .single then .error ⟨.openString, literal.line⟩
      else scanLiteral (.text (literal.push c)) outer (length + 1) (breaks + 1) (line + 1) rest
    else scanLiteral (.text (literal.push c)) outer (length + 1) breaks line rest
  | .splice splice, outer, length, breaks, line, c :: rest =>
    if c = '"' then
      match rest with
      | '"' :: '"' :: rest =>
        scanLiteral (.text ⟨.triple, line, [], []⟩) (splice :: outer) (length + 3) breaks line rest
      | rest =>
        scanLiteral (.text ⟨.single, line, [], []⟩) (splice :: outer) (length + 1) breaks line rest
    else if c = '\n' then
      scanLiteral (.splice splice) outer (length + 1) (breaks + 1) (line + 1) rest
    else if c = '(' then
      scanLiteral (.splice { splice with depth := splice.depth + 1 }) outer (length + 1) breaks line
        rest
    else if c = ')' then
      match splice.depth with
      | 0 => scanLiteral (.text splice.literal) outer (length + 1) breaks line rest
      | depth + 1 =>
        scanLiteral (.splice { splice with depth := depth }) outer (length + 1) breaks line rest
    else scanLiteral (.splice splice) outer (length + 1) breaks line rest

/-- The literal whose first quote stands in front of `rest`. -/
def literalExtent (line : Nat) : (rest : List Char) → Except SyntaxError LiteralExtent
  | '"' :: '"' :: rest => scanLiteral (.text ⟨.triple, line, [], []⟩) [] 2 0 line rest
  | rest => scanLiteral (.text ⟨.single, line, [], []⟩) [] 0 0 line rest

end ApiHandbook.Source
