import ApiHandbook.Text.CharSet

/-!
# White space

The white space of Unicode together with the four separator controls U+001C to U+001F.
-/
namespace ApiHandbook.Text

def blanks : CharSet := ⟨
  [9, 14, 28, 33, 133, 134, 160, 161, 5760, 5761, 8192, 8203, 8232, 8234, 8239, 8240, 8287, 8288,
  12288, 12289]⟩

def isBlank (c : Char) : Bool := blanks.contains c

/-- The text without the white space at its end. -/
def trimEnd (text : List Char) : List Char := (text.reverse.dropWhile isBlank).reverse

end ApiHandbook.Text
