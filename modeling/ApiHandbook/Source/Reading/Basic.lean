import ApiHandbook.Source.Token

/-!
# Reading tokens

A step of the reader takes tokens from the front of a list and gives back the rest. Steps that
must take something carry the proof that the rest is a proper tail, which is what makes the
reader end. Every step is told the line the text ends on, for faults found there.
-/
namespace ApiHandbook.Source

/-- A value read from the front of `tokens`, and a proper tail of them. -/
structure Reading (tokens : List Token) (α : Type) where
  value : α
  rest : List Token
  tail : rest <:+ tokens
  shorter : rest.length < tokens.length

/-- A value read from the front of `tokens`, and a tail of them that may be all. -/
structure Advance (tokens : List Token) (α : Type) where
  value : α
  rest : List Token
  tail : rest <:+ tokens

namespace Reading

variable {tokens middle : List Token} {α β : Type}

def map (f : α → β) (reading : Reading tokens α) : Reading tokens β :=
  { reading with value := f reading.value }

/-- Reading from a tail is reading from the whole. -/
def behind (tail : middle <:+ tokens) (reading : Reading middle α) : Reading tokens α where
  value := reading.value
  rest := reading.rest
  tail := reading.tail.trans tail
  shorter := Nat.lt_of_lt_of_le reading.shorter tail.length_le

def toAdvance (reading : Reading tokens α) : Advance tokens α :=
  ⟨reading.value, reading.rest, reading.tail⟩

end Reading

namespace Advance

variable {tokens middle : List Token} {α β : Type}

def map (f : α → β) (advance : Advance tokens α) : Advance tokens β :=
  { advance with value := f advance.value }

def behind (tail : middle <:+ tokens) (advance : Advance middle α) : Advance tokens α :=
  ⟨advance.value, advance.rest, advance.tail.trans tail⟩

/-- Whatever follows a step that took something, something has been taken. -/
def after (first : Reading tokens α) (advance : Advance first.rest β) : Reading tokens β where
  value := advance.value
  rest := advance.rest
  tail := advance.tail.trans first.tail
  shorter := Nat.lt_of_le_of_lt advance.tail.length_le first.shorter

/-- Takes nothing. -/
def stay (tokens : List Token) (value : α) : Advance tokens α :=
  ⟨value, tokens, List.suffix_refl tokens⟩

end Advance

/-- Takes the first token. -/
def Reading.one {α : Type} (value : α) (token : Token) (rest : List Token) :
    Reading (token :: rest) α :=
  ⟨value, rest, List.suffix_cons token rest, Nat.lt_succ_self _⟩

def openBrace : String := "\x7b"
def closeBrace : String := "\x7d"

def Token.isMark (token : Token) (text : String) : Bool := token.kind = .mark && token.text = text

def Token.isMarkIn (token : Token) (texts : List String) : Bool :=
  token.kind = .mark && texts.contains token.text

/-- The token is this mark or this word. -/
def Token.reads (token : Token) (text : String) : Bool :=
  (token.kind = .mark || token.kind = .name) && token.text = text

def isAt (text : String) (tokens : List Token) : Bool := tokens.head?.any (·.reads text)

def lineAt (endLine : Nat) : List Token → Nat
  | [] => endLine
  | token :: _ => token.line

/-- How the next token is shown in a fault. -/
def foundAt : List Token → String
  | [] => "end of file"
  | token :: _ => token.text

/-- The text of the next token, empty at the end. -/
def textAt : List Token → String
  | [] => ""
  | token :: _ => token.text

/-- Takes the mark or word if it comes next. -/
def accept? (text : String) : (tokens : List Token) → Option (Reading tokens Unit)
  | [] => none
  | token :: rest => if token.reads text then some (.one () token rest) else none

def expect (endLine : Nat) (text : String) (tokens : List Token) :
    Except SyntaxError (Reading tokens Unit) :=
  match accept? text tokens with
  | some taken => .ok taken
  | none => .error ⟨.expectedMark text (foundAt tokens), lineAt endLine tokens⟩

/-- Takes a name if one comes next. -/
def acceptName? : (tokens : List Token) → Option (Reading tokens Token)
  | [] => none
  | token :: rest => if token.kind = .name then some (.one token token rest) else none

def expectName (endLine : Nat) (tokens : List Token) :
    Except SyntaxError (Reading tokens Token) :=
  match acceptName? tokens with
  | some name => .ok name
  | none => .error ⟨.expectedName (foundAt tokens), lineAt endLine tokens⟩

/-- What follows the mark that closes a group in which `depth` more groups are open. -/
def closeGroup (opening closing : String) (depth : Nat) :
    (tokens : List Token) → Option (Reading tokens Unit)
  | [] => none
  | token :: rest =>
    let skip := Reading.behind (List.suffix_cons token rest)
    if token.isMark opening then (closeGroup opening closing (depth + 1) rest).map skip
    else if token.isMark closing then
      match depth with
      | 0 => some (.one () token rest)
      | depth + 1 => (closeGroup opening closing depth rest).map skip
    else (closeGroup opening closing depth rest).map skip

/-- Skips a bracketed group with all that is nested in it. -/
def skipGroup (endLine : Nat) (opening closing : String) (tokens : List Token) :
    Except SyntaxError (Reading tokens Unit) := do
  let start ← expect endLine opening tokens
  match closeGroup opening closing 0 start.rest with
  | some group => return group.behind start.tail
  | none => throw ⟨.unbalanced opening, lineAt endLine tokens⟩

def skipParentheses (endLine : Nat) (tokens : List Token) :
    Except SyntaxError (Reading tokens Unit) := skipGroup endLine "(" ")" tokens

def skipBraces (endLine : Nat) (tokens : List Token) :
    Except SyntaxError (Reading tokens Unit) := skipGroup endLine openBrace closeBrace tokens

/-- Passes over the tokens in front that satisfy a test, and counts them. -/
def passWhile (test : Token → Bool) (tokens : List Token) : Advance tokens Nat :=
  ⟨(tokens.takeWhile test).length, tokens.dropWhile test, tokens.dropWhile_suffix test⟩

/-- Token texts put together, with a space behind each comma and colon that is not the last. -/
def joinTexts : List Token → String
  | [] => ""
  | [token] => token.text
  | token :: rest =>
    token.text ++ (if token.isMarkIn [",", ":"] then " " else "") ++ joinTexts rest

/-- The text of the tokens in front of `rest`. -/
def textBefore (rest tokens : List Token) : String :=
  joinTexts (tokens.take (tokens.length - rest.length))

end ApiHandbook.Source
