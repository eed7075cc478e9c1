import ApiHandbook.Registry.Basic
import ApiHandbook.Text.CodePoint

/-!
# Settings

Options of a run. Lists of keywords say which type names stand for numbers, texts and truth values.
-/
namespace ApiHandbook

open Schema

structure Settings where
  numberKeywords : List String := ["Int"]
  stringKeywords : List String := ["String"]
  booleanKeywords : List String := ["Bool"]
  segmentSeparator : List Text.CodePoint := [.char ',']
  strict : Bool := true
  objectCatalog : Bool := false
  deriving DecidableEq, Repr

namespace Settings

/-- Sets a keyword's type; a keyword met again keeps its place. -/
def setKeyword (table : List (String × ValueType)) (keyword : String) (type : ValueType) :
    List (String × ValueType) :=
  match table with
  | [] => [(keyword, type)]
  | entry :: rest =>
    if entry.1 = keyword then (keyword, type) :: rest else entry :: setKeyword rest keyword type

def primitives (settings : Settings) : List (String × ValueType) :=
  let entries := settings.numberKeywords.map (·, ValueType.number)
    ++ settings.stringKeywords.map (·, ValueType.string)
    ++ settings.booleanKeywords.map (·, ValueType.boolean)
  entries.foldl (fun table (keyword, type) => setKeyword table keyword type) []

def rules (settings : Settings) : Rules :=
  ⟨settings.primitives, String.ofList (Text.shownText settings.segmentSeparator)⟩

/-- The settings with a mark in place of halves of surrogate pairs. -/
def marked (settings : Settings) (mark : List Char) : Settings :=
  { settings with segmentSeparator := Text.marked mark settings.segmentSeparator }

end Settings

end ApiHandbook
