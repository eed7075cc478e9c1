import ApiHandbook.Proofs.Source.Words

/-!
# Literals with splices

A literal between single quotes is put together from pieces of text and from splices between them,
whose code may hold parentheses and further such literals. Wherever such a literal stands, it is cut
off whole, its segments are its pieces, and the lines go on by the breaks in its splices.
-/
namespace ApiHandbook.Source

/-! ## Putting literals together -/

/-- One character of a piece of text, or a backslash with the character behind it. -/
inductive TextUnit where
  | char (c : Char) (plain : c ∉ ['"', '\\', '\n'])
  | escape (c : Char) (inline : c ∉ ['(', '\n'])

def TextUnit.written : TextUnit → List Char
  | .char c _ => [c]
  | .escape c _ => ['\\', c]

def pieceText (units : List TextUnit) : List Char := units.flatMap TextUnit.written

mutual

/-- The code of a splice. -/
inductive SpliceCode where
  | nil
  | char (c : Char) (plain : c ∉ ['"', '(', ')']) (rest : SpliceCode)
  | group (inner rest : SpliceCode)
  | literal (inner : Template) (rest : SpliceCode)

/-- A piece of text, or a piece in front of a splice with more behind it. -/
inductive Template where
  | piece (units : List TextUnit)
  | splice (units : List TextUnit) (code : SpliceCode) (rest : Template)

end

mutual

def SpliceCode.written : SpliceCode → List Char
  | .nil => []
  | .char c _ rest => c :: rest.written
  | .group inner rest => '(' :: inner.written ++ ')' :: rest.written
  | .literal inner rest => '"' :: inner.inside ++ '"' :: rest.written

/-- What stands between the quotes. -/
def Template.inside : Template → List Char
  | .piece units => pieceText units
  | .splice units code rest =>
    pieceText units ++ ('\\' :: '(' :: code.written ++ ')' :: rest.inside)

end

mutual

/-- No empty literal of the code stands in front of a quote, which would make it open another one
with three quotes. -/
def SpliceCode.Apart : SpliceCode → Prop
  | .nil => True
  | .char _ _ rest => rest.Apart
  | .group inner rest => inner.Apart ∧ rest.Apart
  | .literal inner rest =>
    inner.Apart ∧ (inner.inside = [] → rest.written.head? ≠ some '"') ∧ rest.Apart

def Template.Apart : Template → Prop
  | .piece _ => True
  | .splice _ code rest => code.Apart ∧ rest.Apart

end

namespace Template

def written (template : Template) : List Char := '"' :: (template.inside ++ ['"'])

def pieces : Template → List (List Char)
  | .piece units => [pieceText units]
  | .splice units _ rest => pieceText units :: rest.pieces

def codes : Template → List SpliceCode
  | .piece _ => []
  | .splice _ code rest => code :: rest.codes

/-- The pieces that are not empty. -/
def segments (template : Template) : List String :=
  (template.pieces.filter (· ≠ [])).map String.ofList

/-- The number of line breaks in the splices. -/
def breaks (template : Template) : Nat :=
  (template.codes.flatMap SpliceCode.written).count '\n'

end Template

/-! ## Their place in the grammar of literals -/

theorem count_pieceText (units : List TextUnit) : (pieceText units).count '\n' = 0 := by
  rw [List.count_eq_zero]
  intro lineBreak
  obtain ⟨unit, -, inside⟩ := List.mem_flatMap.mp lineBreak
  cases unit with
  | char c plain =>
    cases List.mem_singleton.mp inside
    exact plain (by decide)
  | escape c inline =>
    simp only [TextUnit.written, List.mem_cons, Char.reduceEq, List.not_mem_nil, or_false,
      false_or] at inside
    subst inside
    exact inline (by decide)

theorem Template.count_inside (template : Template) :
    template.inside.count '\n' = template.breaks := by
  match template with
  | .piece units => exact count_pieceText units
  | .splice units code rest =>
    have later := rest.count_inside
    simp only [inside, breaks, codes, List.flatMap_cons, List.count_append, count_pieceText,
      List.cons_append, List.count_cons] at later ⊢
    simp [later]

/-- A piece of text in front of the rest of a literal. -/
theorem LiteralBody.behindPiece {shown : List (Option Char)} {rest : List Char}
    (further : LiteralBody (.text .single) shown 0 rest) (units : List TextUnit) :
    LiteralBody (.text .single) ((pieceText units).map some ++ shown) 0
      (pieceText units ++ rest) := by
  induction units with
  | nil => exact further
  | cons unit units ih =>
    cases unit with
    | char c plain =>
      simp only [List.mem_cons, List.not_mem_nil, or_false, not_or] at plain
      refine .char plain.2.1 ?_ (fun _ => plain.2.2) ih
      intro closes
      exact plain.1 (List.cons_prefix_cons.mp closes).1.symm
    | escape c inline =>
      simp only [List.mem_cons, List.not_mem_nil, or_false, not_or] at inline
      have escaped := LiteralBody.escape inline.1 ih
      rwa [if_neg inline.2] at escaped

/-- What a literal shows of its text: its pieces, with a gap for each splice. -/
def Template.shown : Template → List (Option Char)
  | .piece units => (pieceText units).map some
  | .splice units _ rest => (pieceText units).map some ++ none :: rest.shown

mutual

theorem SpliceCode.body : (code : SpliceCode) → code.Apart →
    LiteralBody .splice [] 0 code.written
  | .nil, _ => .nil .splice
  | .char _ plain rest, apart => .code plain (rest.body apart)
  | .group inner rest, apart => .group (inner.body apart.1) (rest.body apart.2)
  | .literal inner rest, apart => by
    have quoted := inner.body apart.1
    have whole := LiteralBody.literal quoted (fun _ => apart.2.1) (rest.body apart.2.2)
    simpa [SpliceCode.written, Fence.quotes] using whole

theorem Template.body : (template : Template) → template.Apart →
    LiteralBody (.text .single) template.shown 0 template.inside
  | .piece units, _ => by
    have piece := LiteralBody.behindPiece (.nil (.text .single)) units
    simpa [Template.shown, Template.inside] using piece
  | .splice units code rest, apart =>
    (LiteralBody.splice (code.body apart.1) (rest.body apart.2)).behindPiece units

end

theorem stretches_piece (before piece : List Char) (shown : List (Option Char)) :
    stretches before (piece.map some ++ shown) = stretches (before ++ piece) shown := by
  induction piece generalizing before with
  | nil => simp
  | cons c piece ih => simp [stretches, ih]

theorem Template.stretches_shown (template : Template) :
    stretches [] template.shown = template.segments := by
  match template with
  | .piece units =>
    have whole := stretches_piece [] (pieceText units) []
    by_cases empty : pieceText units = [] <;>
      simp_all [shown, segments, pieces, stretches]
  | .splice units code rest =>
    have later := rest.stretches_shown
    rw [shown, stretches_piece, List.nil_append, stretches, later]
    by_cases empty : pieceText units = [] <;> simp [segments, pieces, empty]

/-! ## Cutting them off -/

section
variable {template : Template} {after : List Char}

theorem literalExtent_template (apart : template.Apart)
    (ends : template.inside = [] → after.head? ≠ some '"') (line : Nat) :
    literalExtent line (template.inside ++ '"' :: after) =
      .ok ⟨template.segments, (template.inside ++ ['"']).length, template.breaks⟩ := by
  have count : template.breaks + 0 = template.inside.count '\n' := template.count_inside.symm
  have read := literalExtent_complete (template.body apart) count (fun _ => ends) line
  rw [template.stretches_shown] at read
  simpa [Fence.quotes] using read

theorem frontExtent_template (apart : template.Apart)
    (ends : template.inside = [] → after.head? ≠ some '"') (line : Nat) :
    frontExtent line '"' (template.inside ++ ['"'] ++ after) =
      .ok ⟨.literal template.segments, (template.inside ++ ['"']).length, template.breaks⟩ := by
  rw [frontExtent, if_neg (by simp), if_pos rfl, List.append_assoc, List.singleton_append,
    literalExtent_template apart ends]
  rfl

end

/-- A literal that is put together from pieces and splices is read up to its closing quote, whatever
follows it: its segments are the pieces that are not empty, in order, what is cut off is the literal
as it is written, and reading goes on behind it with the lines counted on by the breaks in its
splices. Only an empty literal must not stand in front of another quote. -/
theorem templates_read_exactly (template : Template) (apart : template.Apart) (after : List Char)
    (ends : template.inside = [] → after.head? ≠ some '"') (line : Nat) :
    literalExtent line (template.inside ++ '"' :: after) =
        .ok ⟨template.segments, (template.inside ++ ['"']).length, template.breaks⟩ ∧
      piecesFrom line (template.written ++ after) =
        (piecesFrom (line + template.breaks) after).map
          (⟨.literal template.segments, template.written, template.breaks⟩ :: ·) :=
  ⟨literalExtent_template apart ends line, piecesFrom_front (frontExtent_template apart ends line)⟩

/-- Two splices without text between them: a call whose argument is a literal with a splice of its
own, with a line break behind it, and an empty literal. -/
def greeting : Template :=
  .splice [.char 'a' (by decide)]
    (.char 'f' (by decide)
      (.group
        (.literal (.splice [.char 'b' (by decide)] (.char 'x' (by decide) .nil) (.piece [])) .nil)
        (.char '\n' (by decide) .nil)))
    (.splice [] (.literal (.piece []) .nil) (.piece [.escape '"' (by decide)]))

/-- The literal stands in front of another one, without a blank between them. -/
theorem greeting_read_exactly :
    greeting.written = "\"a\\(f(\"b\\(x)\")\n)\\(\"\")\\\"\"".toList ∧
      greeting.Apart ∧
      piecesFrom 1 (greeting.written ++ "\"c\"".toList) =
        (piecesFrom 2 "\"c\"".toList).map
          (⟨.literal ["a", "\\\""], greeting.written, 1⟩ :: ·) := by
  have apart : greeting.Apart := by
    simp [greeting, Template.Apart, SpliceCode.Apart, SpliceCode.written]
  have nonempty : greeting.inside ≠ [] := by decide
  refine ⟨by decide, apart, ?_⟩
  exact (templates_read_exactly greeting apart "\"c\"".toList (absurd · nonempty) 1).2

end ApiHandbook.Source
