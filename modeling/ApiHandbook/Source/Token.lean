import ApiHandbook.Source.Piece
import ApiHandbook.Text.Blank

/-!
# Tokens

Names, numbers, literals and marks with the line they start on, whether a line break stands in
front of them, and the line comments that lead up to them.
-/
namespace ApiHandbook.Source

inductive TokenKind where
  | name | number | string | mark
  deriving DecidableEq, Repr

structure Token where
  kind : TokenKind
  text : String
  line : Nat
  startsLine : Bool := false
  comments : List String := []
  segments : List String := []
  deriving DecidableEq, Repr

/-- All tokens of a text, with the line it ends on and the comments behind the last token. -/
structure TokenStream where
  tokens : List Token
  endLine : Nat
  endComments : List String
  deriving DecidableEq, Repr

/-- What a line comment says: without its two or three slashes, one space after them, and white
space at the end. -/
def commentText (raw : List Char) : String :=
  let body := raw.drop 2
  let body := if body.head? = some '/' then body.tail else body
  let body := if body.head? = some ' ' then body.tail else body
  String.ofList (Text.trimEnd body)

/-- A name without the grave accents around it. -/
def nameText (raw : List Char) : String := String.ofList (raw.filter (· ≠ '\x60'))

def TokenStream.cons (token : Token) (stream : TokenStream) : TokenStream :=
  { stream with tokens := token :: stream.tokens }

/-- Tokens of the pieces that follow on line `line`. A comment leads the next token only if no
token stands before it on its line; line breaks inside block comments do not start a line. -/
def tokensFrom (line : Nat) (startsLine : Bool) (comments : List String) :
    List Piece → TokenStream
  | [] => ⟨[], line, comments⟩
  | piece :: rest =>
    let next := line + piece.breaks
    let token (kind : TokenKind) (text : String) (segments : List String) :=
      (tokensFrom next false [] rest).cons ⟨kind, text, line, startsLine, comments, segments⟩
    match piece.kind with
    | .blank | .blockComment => tokensFrom next startsLine comments rest
    | .lineBreak => tokensFrom next true comments rest
    | .lineComment =>
      tokensFrom next startsLine
        (if startsLine then comments ++ [commentText piece.raw] else comments) rest
    | .number => token .number (String.ofList piece.raw) []
    | .name => token .name (nameText piece.raw) []
    | .mark => token .mark (String.ofList piece.raw) []
    | .literal segments => token .string (String.ofList piece.raw) segments

def tokenize (text : List Char) : Except SyntaxError TokenStream := do
  return tokensFrom 1 true [] (← pieces text)

end ApiHandbook.Source
