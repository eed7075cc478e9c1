/-!
# A place in a YAML text

The text that is left, and the index, line and column it starts at. Line ends written with a
carriage return have been unified before, so they do not occur.
-/
namespace ApiHandbook.Yaml

structure Cursor where
  rest : List Char
  index : Nat := 0
  line : Nat := 0
  column : Nat := 0
  deriving DecidableEq, Repr

def isBreak (c : Char) : Bool := c = '\n' || c = '\x85' || c = '\u2028' || c = '\u2029'

def isSpaceOrTab (c : Char) : Bool := c = ' ' || c = '\t'

def isGap (c : Char) : Bool := isSpaceOrTab c || isBreak c

/-- A line break as it stands in a scalar. -/
def breakText (c : Char) : Char := if c = '\x85' then '\n' else c

/-- The end of the text ends a word, too. -/
def endsWord (c : Option Char) : Bool := c.all isGap

/-- Moves over one character. A byte order mark takes no column. -/
def Cursor.next (cursor : Cursor) : Cursor :=
  match cursor.rest with
  | [] => cursor
  | c :: rest =>
    if isBreak c then ⟨rest, cursor.index + 1, cursor.line + 1, 0⟩
    else
      ⟨rest, cursor.index + 1, cursor.line,
        if c = '\ufeff' then cursor.column else cursor.column + 1⟩

def Cursor.skip (cursor : Cursor) : Nat → Cursor
  | 0 => cursor
  | n + 1 => cursor.next.skip n

@[simp] theorem Cursor.length_next (cursor : Cursor) :
    cursor.next.rest.length = cursor.rest.length - 1 := by
  unfold Cursor.next
  split
  · simp_all
  · split <;> simp_all

@[simp] theorem Cursor.length_skip (cursor : Cursor) (n : Nat) :
    (cursor.skip n).rest.length = cursor.rest.length - n := by
  induction n generalizing cursor with
  | zero => rfl
  | succ n ih => rw [Cursor.skip, ih, length_next]; omega

def Cursor.peek (cursor : Cursor) : Option Char := cursor.rest.head?

/-- Three times `mark` and the end of a word. -/
def isTriple (mark : Char) (text : List Char) : Bool :=
  text.take 3 = [mark, mark, mark] && endsWord text[3]?

/-- At the start of a line, such text ends a document. -/
def isDocumentMark (text : List Char) : Bool := isTriple '-' text || isTriple '.' text

end ApiHandbook.Yaml
