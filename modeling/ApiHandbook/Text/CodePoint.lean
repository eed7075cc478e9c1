/-!
# Code points

A text that is given by codes may hold half of a surrogate pair. A half is no character: such a
text can be compared and tested like any other, but it cannot be written.
-/
namespace ApiHandbook.Text

inductive CodePoint where
  | char (c : Char)
  /-- Half of a surrogate pair. -/
  | half (code : Nat)
  deriving DecidableEq, Repr

namespace CodePoint

/-- The character shown for a code point: halves have none of their own. -/
def shown : CodePoint → Char
  | .char c => c
  | .half _ => '\ufffd'

def isHalf : CodePoint → Bool
  | .char _ => false
  | .half _ => true

end CodePoint

def codePoints (text : List Char) : List CodePoint := text.map .char

def shownText (text : List CodePoint) : List Char := text.map CodePoint.shown

/-- Whether a text holds half of a surrogate pair. -/
def isBroken (text : List CodePoint) : Bool := text.any CodePoint.isHalf

/-- A text with a mark in place of each half. -/
def marked (mark : List Char) (text : List CodePoint) : List CodePoint :=
  text.flatMap fun
    | .char c => [.char c]
    | .half _ => codePoints mark

/-- A mark that nothing in a text can be taken for: more characters of a private use area in a row
than the text has characters. -/
def markFor (text : List Char) : List Char := List.replicate (text.length + 1) '\ue000'

/-- Whether a text holds another. -/
def holds (part : List Char) : List Char → Bool
  | [] => part.isEmpty
  | c :: rest => part.isPrefixOf (c :: rest) || holds part rest

theorem holds_iff (part text : List Char) : holds part text = true ↔ part <:+: text := by
  induction text with
  | nil => simp [holds]
  | cons c rest ih => simp [holds, ih, List.infix_cons_iff]

theorem holds_markFor (text : List Char) : holds (markFor text) text = false := by
  apply Bool.eq_false_iff.mpr
  intro inside
  have := ((holds_iff _ _).mp inside).length_le
  rw [markFor, List.length_replicate] at this
  omega

@[simp] theorem shownText_codePoints (text : List Char) : shownText (codePoints text) = text := by
  induction text with
  | nil => rfl
  | cons c rest ih => exact congrArg (c :: ·) ih

@[simp] theorem isBroken_codePoints (text : List Char) : isBroken (codePoints text) = false := by
  induction text with
  | nil => rfl
  | cons c rest ih => exact ih

end ApiHandbook.Text
