import ApiHandbook.Schema.Error
import ApiHandbook.Text.Quoted

/-! # Faults of source text -/
namespace ApiHandbook.Source

inductive SyntaxFault where
  | strayCharacter (c : Char)
  | openComment | openString | openSplice
  | unbalanced (bracket : String)
  | endBefore (mark : String)
  | expectedMark (mark found : String)
  | expectedName (found : String)
  | expectedBinding (found : String)
  | expectedType (found : String)
  | expectedExpression
  deriving DecidableEq, Repr

structure SyntaxError where
  fault : SyntaxFault
  line : Nat
  deriving DecidableEq, Repr

def SyntaxFault.message : SyntaxFault → String
  | .strayCharacter c => "unexpected character " ++ String.ofList (Text.quoted [c])
  | .openComment => "unterminated block comment"
  | .openString => "unterminated string literal"
  | .openSplice => "unterminated string interpolation"
  | .unbalanced bracket => s!"unbalanced '{bracket}'"
  | .endBefore mark => s!"expected '{mark}', found end of file"
  | .expectedMark mark found => s!"expected '{mark}', found '{found}'"
  | .expectedName found => s!"expected identifier, found '{found}'"
  | .expectedBinding found => s!"expected binding name, found '{found}'"
  | .expectedType found => s!"expected type, found '{found}'"
  | .expectedExpression => "expected expression"

def SyntaxError.toSchemaError (error : SyntaxError) : Schema.SchemaError :=
  .source error.fault.message (some error.line)

end ApiHandbook.Source
