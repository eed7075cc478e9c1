import ApiHandbook.Files.Path
import ApiHandbook.Source.Reading.Member
import ApiHandbook.Text.Utf8

/-! # Source files -/
namespace ApiHandbook.Source

open Files Schema

/-- The text of a source file and its declarations. -/
structure SourceFile where
  text : List Char
  declarations : List Declaration

/-- A source file, given what reading it has brought. -/
def parseFile (path : Path) (content : Except FileFault (List UInt8)) :
    Except SchemaError SourceFile := do
  let unreadable (reason : String) : SchemaError :=
    .source ("cannot read " ++ path.text ++ ": " ++ reason) none
  let bytes ← content.mapError fun fault => unreadable (fault.message path)
  let text ← (Text.decodeUtf8 bytes).mapError fun fault => unreadable fault.message
  let text := Text.unifyLineEnds text
  let declarations ← (parse text).mapError SyntaxError.toSchemaError
  return ⟨text, declarations⟩

end ApiHandbook.Source
