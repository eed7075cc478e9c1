import ApiHandbook.Source.Reading.Basic
import ApiHandbook.Source.Declaration

/-!
# Reading initial values

An initial value runs to the end of its line unless brackets are open or the next line goes on
with a point. Literals and member names are told apart; anything else is kept as text.
-/
namespace ApiHandbook.Source

def openingMarks : List String := ["(", "[", openBrace]
def closingMarks : List String := [")", "]", closeBrace]

/-- A token in front of which a value ends, once it has begun and no bracket is open. -/
def Token.endsValue (token : Token) : Bool :=
  token.isMarkIn [",", ";", closeBrace, openBrace] || (token.startsLine && !token.isMark ".")

/-- The number of tokens of a value inside `depth` brackets. -/
def valueLength (begun : Bool) (depth : Nat) : List Token → Nat
  | [] => 0
  | token :: rest =>
    if depth = 0 && (begun && token.endsValue || token.isMarkIn closingMarks) then 0
    else if token.isMarkIn openingMarks then valueLength true (depth + 1) rest + 1
    else if token.isMarkIn closingMarks then valueLength true (depth - 1) rest + 1
    else valueLength true depth rest + 1

def classifyValue (tokens : List Token) : Initializer :=
  match tokens with
  | [⟨.string, text, _, _, _, segments⟩] => ⟨.string, text, segments⟩
  | [⟨.number, text, _, _, _, _⟩] =>
    if isWholeNumber text.toList then ⟨.integer, text, []⟩ else ⟨.expression, text, []⟩
  | [⟨.name, text, _, _, _, _⟩] =>
    if text = "true" || text = "false" then ⟨.boolean, text, []⟩ else ⟨.expression, text, []⟩
  | [point, ⟨.name, text, _, _, _, _⟩] =>
    if point.text = "." then ⟨.member, text, []⟩ else ⟨.expression, joinTexts tokens, []⟩
  | [⟨.name, _, _, _, _, _⟩, point, ⟨.name, text, _, _, _, _⟩] =>
    if point.text = "." then ⟨.member, text, []⟩ else ⟨.expression, joinTexts tokens, []⟩
  | _ => ⟨.expression, joinTexts tokens, []⟩

def readInitializer (endLine : Nat) (tokens : List Token) :
    Except SyntaxError (Reading tokens Initializer) :=
  match tokens, valueLength false 0 tokens with
  | token :: rest, length + 1 =>
    .ok ⟨classifyValue (token :: rest.take length), rest.drop length,
      (List.drop_suffix length rest).trans (List.suffix_cons token rest),
      by simp only [List.length_drop, List.length_cons]; omega⟩
  | tokens, _ => .error ⟨.expectedExpression, lineAt endLine tokens⟩

end ApiHandbook.Source
