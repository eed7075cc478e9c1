import ApiHandbook.Text.LowerCase

/-!
# Snake case

Words of a camel-case name are split by underscores and lower-cased: `profileImageURL` becomes
`profile_image_url`. Word boundaries are judged on ASCII letters and digits only.
-/
namespace ApiHandbook.Text

/-- Whether a new word starts at `c`: a capital after a lower-case letter or digit, or the last
capital of a run when a lower-case letter follows. -/
def startsWord (before : Char) (c : Char) (after : Option Char) : Bool :=
  c.isUpper && (before.isLower || before.isDigit || before.isUpper && after.any Char.isLower)

/-- Puts an underscore in front of every word of the text that follows `before`. -/
def splitWordsAfter (before : Char) : List Char → List Char
  | [] => []
  | c :: rest =>
    if startsWord before c rest.head? then '_' :: c :: splitWordsAfter c rest
    else c :: splitWordsAfter c rest

def splitWords : List Char → List Char
  | [] => []
  | c :: rest => c :: splitWordsAfter c rest

def snakeCase (name : String) : String :=
  String.ofList (lowerCase (splitWords name.toList))

end ApiHandbook.Text
