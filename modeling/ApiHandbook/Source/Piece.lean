import ApiHandbook.Source.StringLiteral
import ApiHandbook.Text.NameChar

/-!
# Pieces of source text

Source text is cut into pieces: blanks, line breaks, comments, numbers, names, marks and string
literals. Put together again the pieces are the text, and no piece is empty.
-/
namespace ApiHandbook.Source

open Text

inductive PieceKind where
  | blank | lineBreak | lineComment | blockComment | number | name | mark
  | literal (segments : List String)
  deriving DecidableEq, Repr

/-- A stretch of text of one kind and the number of line breaks that count in it. -/
structure Piece where
  kind : PieceKind
  raw : List Char
  breaks : Nat
  deriving DecidableEq, Repr

def isInlineBlank (c : Char) : Bool :=
  c = ' ' || c = '\t' || c = '\r' || c = '\x0c' || c = '\x0b'

/-- Characters up to the end of a block comment that has `depth` comments open inside it. -/
def blockCommentLength (depth : Nat) : List Char → Option Nat
  | '/' :: '*' :: rest => (blockCommentLength (depth + 1) rest).map (· + 2)
  | '*' :: '/' :: rest =>
    match depth with
    | 0 => some 2
    | depth + 1 => (blockCommentLength depth rest).map (· + 2)
  | _ :: rest => (blockCommentLength depth rest).map (· + 1)
  | [] => none

def isHexOrUnderscore (c : Char) : Bool :=
  c.isDigit || ('a' ≤ c && c ≤ 'f') || ('A' ≤ c && c ≤ 'F') || c = '_'

def isDecimalOrUnderscore (c : Char) : Bool := isDecimal c || c = '_'

/-- Length of a point and the digits behind it. -/
def fractionLength : List Char → Nat
  | '.' :: d :: rest => if isDecimal d then 2 + (rest.takeWhile isDecimalOrUnderscore).length else 0
  | _ => 0

/-- Length of an exponent: its letter, a sign if there is one, and digits. -/
def exponentLength : List Char → Nat
  | e :: rest =>
    let signs := if rest.head?.any fun s => s = '+' || s = '-' then 1 else 0
    let digits := ((rest.drop signs).takeWhile isDecimal).length
    if (e = 'e' || e = 'E') && digits ≠ 0 then 1 + signs + digits else 0
  | [] => 0

/-- Length behind the leading zero of a number with a radix letter. -/
def radixLength : List Char → Option Nat
  | r :: rest =>
    let digits := (rest.takeWhile isHexOrUnderscore).length
    if (r = 'x' || r = 'o' || r = 'b') && digits ≠ 0 then some (1 + digits) else none
  | [] => none

/-- How far a number that starts with `c` goes on. -/
def numberLength (c : Char) (rest : List Char) : Option Nat :=
  match if c = '0' then radixLength rest else none with
  | some length => some length
  | none =>
    if isDecimal c then
      let whole := (rest.takeWhile isDecimalOrUnderscore).length
      let fraction := fractionLength (rest.drop whole)
      some (whole + fraction + exponentLength (rest.drop (whole + fraction)))
    else none

/-- Whether a number is written as a whole one, without fraction and exponent. -/
def isWholeNumber : List Char → Bool
  | '0' :: rest => radixLength rest = some rest.length || rest.all isDecimalOrUnderscore
  | c :: rest => isDecimal c && rest.all isDecimalOrUnderscore
  | [] => false

/-- How far a name that starts with `c` goes on. A name may stand between grave accents. -/
def nameLength (c : Char) (rest : List Char) : Option Nat :=
  if isNameStart c then some (rest.takeWhile isNameChar).length
  else if c = '\x60' && rest.head?.any isNameStart then
    let inner := (rest.takeWhile isNameChar).length
    if rest.drop inner |>.head?.any (· = '\x60') then some (inner + 1) else none
  else none

def markChars : List Char :=
  ['{', '}', '(', ')', '[', ']', ':', ',', ';', '=', '?', '!', '.', '<', '>', '@', '#', '&', '|',
    '+', '-', '*', '/', '%', '^', '~', '$', '\\']

/-- How far a punctuation mark that starts with `c` goes on. -/
def markLength (c : Char) (rest : List Char) : Option Nat :=
  match c, rest with
  | '-', '>' :: _ => some 1
  | '.', '.' :: '.' :: _ => some 2
  | '.', '.' :: '<' :: _ => some 2
  | c, _ => if markChars.contains c then some 0 else none

/-- Kind of a piece, the number of characters behind its first one, and its line breaks. -/
structure Extent where
  kind : PieceKind
  more : Nat
  breaks : Nat := 0
  deriving DecidableEq, Repr

/-- The number, name or mark that starts with `c`. -/
def wordExtent? (c : Char) (rest : List Char) : Option Extent :=
  ((numberLength c rest).map (⟨.number, ·, 0⟩))
    <|> ((nameLength c rest).map (⟨.name, ·, 0⟩))
    <|> ((markLength c rest).map (⟨.mark, ·, 0⟩))

/-- The piece that starts with `c`, on line `line`. -/
def frontExtent (line : Nat) (c : Char) (rest : List Char) : Except SyntaxError Extent :=
  if c = '/' && rest.head? = some '*' then
    match blockCommentLength 0 rest.tail with
    | some length => .ok ⟨.blockComment, 1 + length, (rest.take (1 + length)).count '\n'⟩
    | none => .error ⟨.openComment, line⟩
  else if c = '"' then do
    let literal ← literalExtent line rest
    return ⟨.literal literal.segments, literal.length, literal.breaks⟩
  else if isInlineBlank c then .ok ⟨.blank, (rest.takeWhile isInlineBlank).length, 0⟩
  else if c = '\n' then .ok ⟨.lineBreak, 0, 1⟩
  else if c = '/' && rest.head? = some '/' then
    .ok ⟨.lineComment, (rest.takeWhile (· ≠ '\n')).length, 0⟩
  else
    match wordExtent? c rest with
    | some extent => .ok extent
    | none => .error ⟨.strayCharacter c, line⟩

/-- Cuts the text that starts on line `line`. -/
def piecesFrom (line : Nat) (text : List Char) : Except SyntaxError (List Piece) :=
  match text with
  | [] => .ok []
  | c :: rest => do
    let extent ← frontExtent line c rest
    let pieces ← piecesFrom (line + extent.breaks) (rest.drop extent.more)
    return ⟨extent.kind, c :: rest.take extent.more, extent.breaks⟩ :: pieces
termination_by text.length
decreasing_by simp only [List.length_drop, List.length_cons]; omega

def pieces (text : List Char) : Except SyntaxError (List Piece) := piecesFrom 1 text

end ApiHandbook.Source
