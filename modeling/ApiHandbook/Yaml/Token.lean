import ApiHandbook.Yaml.Tag

/-!
# Tokens of a YAML text

Blocks are told apart by columns: a line further to the right opens a block, one further to the
left closes blocks. A scalar may turn out to be a key when a colon follows it on its line; the
tokens that open a mapping are then put in front of it. Text that cannot be scanned is a token of
its own behind those that are settled before it, so that a reader meets whatever is wrong in the
order of the text.
-/
namespace ApiHandbook.Yaml

open Text (CodePoint codePoints)

inductive Token where
  | directive (directive : Directive)
  | documentStart | documentEnd
  | sequenceStart | mappingStart | blockEnd
  | flowSequenceStart | flowSequenceEnd | flowMappingStart | flowMappingEnd
  | entry | flowEntry | key | value
  | alias (name : String) | anchor (name : String) | tag (tag : TagText)
  | scalar (text : List CodePoint) (plain : Bool)
  | streamEnd
  /-- Text that cannot be scanned. -/
  | broken (error : YamlError)
  deriving DecidableEq, Repr

/-- A token that may turn out to start a key. It has to, if it stands where a block's lines
start. -/
structure KeyCandidate where
  flow : Nat
  tokenCount : Nat
  required : Bool
  index : Nat
  line : Nat
  column : Nat
  deriving DecidableEq, Repr

structure Scan where
  cursor : Cursor
  tokens : Array Token := #[]
  /-- Number of open flow collections. -/
  flow : Nat := 0
  /-- Columns of the open blocks, innermost first. -/
  indents : List Nat := []
  /-- A key may start here. -/
  keyAllowed : Bool := true
  candidates : List KeyCandidate := []

namespace Scan

def add (scan : Scan) (tokens : List Token) : Scan :=
  { scan with tokens := scan.tokens ++ tokens }

/-- Passes over spaces, comments and line breaks; `comment` tells that one has started. Outside
flow collections a new line may start with a key. -/
def skipGap (flow : Bool) (comment : Bool) (count : Nat) (broken : Bool) :
    List Char → Nat × Bool
  | [] => (count, broken)
  | c :: rest =>
    if isBreak c then skipGap flow false (count + 1) (broken || !flow) rest
    else if comment || c = ' ' then skipGap flow comment (count + 1) broken rest
    else if c = '#' then skipGap flow true (count + 1) broken rest
    else (count, broken)

def toNextToken (scan : Scan) : Scan :=
  let mark := if scan.cursor.index = 0 && scan.cursor.peek = some '\ufeff' then 1 else 0
  let (count, broken) := skipGap (scan.flow ≠ 0) false mark false (scan.cursor.rest.drop mark)
  { scan with cursor := scan.cursor.skip count, keyAllowed := scan.keyAllowed || broken }

/-- A candidate is out of the question on another line or more than 1024 characters on. -/
def isStale (cursor : Cursor) (key : KeyCandidate) : Bool :=
  key.line ≠ cursor.line || cursor.index - key.index > 1024

/-- Whether a key that has to be there is out of the question. -/
def lacksKey (scan : Scan) : Bool :=
  scan.candidates.any fun key => isStale scan.cursor key && key.required

def withoutStale (scan : Scan) : Scan :=
  { scan with candidates := scan.candidates.filter (!isStale scan.cursor ·) }

def dropStale (scan : Scan) : Except YamlError Scan :=
  if scan.lacksKey then .error .malformed else .ok scan.withoutStale

/-- The tokens in front of which nothing can be put any more. -/
def settled (scan : Scan) : List Token :=
  match (scan.candidates.map (·.tokenCount)).min? with
  | some count => scan.tokens.toList.take count
  | none => scan.tokens.toList

/-- Closes the blocks right of a column. -/
def unwind (scan : Scan) (column : Nat) : Scan :=
  if scan.flow ≠ 0 then scan
  else
    let indents := scan.indents.dropWhile (column < ·)
    let closed := scan.indents.length - indents.length
    { scan.add (List.replicate closed .blockEnd) with indents }

/-- Closes all blocks. -/
def unwindAll (scan : Scan) : Scan :=
  if scan.flow ≠ 0 then scan
  else { scan.add (List.replicate scan.indents.length .blockEnd) with indents := [] }

/-- Opens a block at a column if it lies right of the current one. -/
def opensBlock (scan : Scan) (column : Nat) : Bool :=
  scan.indents.head?.all (· < column)

def openBlock (scan : Scan) (start : Token) : Scan :=
  let column := scan.cursor.column
  if scan.flow = 0 && scan.opensBlock column then
    { scan.add [start] with indents := column :: scan.indents }
  else scan

def dropCandidate (scan : Scan) : Except YamlError Scan :=
  if scan.candidates.any fun key => key.flow = scan.flow && key.required then .error .malformed
  else .ok { scan with candidates := scan.candidates.filter (·.flow ≠ scan.flow) }

def saveCandidate (scan : Scan) : Except YamlError Scan :=
  if scan.keyAllowed then do
    let scan ← scan.dropCandidate
    let cursor := scan.cursor
    let required := scan.flow = 0 && scan.indents.head? = some cursor.column
    return { scan with candidates :=
      ⟨scan.flow, scan.tokens.size, required, cursor.index, cursor.line, cursor.column⟩
        :: scan.candidates }
  else .ok scan

/-- The state with a token added, and the number of characters that the token takes behind its
first one. -/
structure Fetched where
  scan : Scan
  more : Nat

def fetchMark (scan : Scan) (token : Token) (keyAllowed : Bool) (more : Nat) :
    Except YamlError Fetched := do
  let scan ← scan.dropCandidate
  return ⟨{ scan.add [token] with keyAllowed }, more⟩

def fetchFlowStart (scan : Scan) (token : Token) : Except YamlError Fetched := do
  let scan ← scan.saveCandidate
  return ⟨{ scan.add [token] with flow := scan.flow + 1, keyAllowed := true }, 0⟩

def fetchFlowEnd (scan : Scan) (token : Token) : Except YamlError Fetched := do
  let scan ← scan.dropCandidate
  if scan.flow = 0 then throw .malformed
  return ⟨{ scan.add [token] with flow := scan.flow - 1, keyAllowed := false }, 0⟩

/-- An entry or an explicit key opens a block of its own in a block context. -/
def fetchBlockMark (scan : Scan) (start token : Token) (keyAllowed : Bool) :
    Except YamlError Fetched :=
  if scan.flow = 0 && !scan.keyAllowed then .error .malformed
  else (scan.openBlock start).fetchMark token keyAllowed 0

/-- A colon: it makes the candidate of this level a key, or stands for an empty key. -/
def fetchValue (scan : Scan) : Except YamlError Fetched :=
  match scan.candidates.find? (·.flow = scan.flow) with
  | some key =>
    let opens := scan.flow = 0 && scan.opensBlock key.column
    let marks := if opens then #[.mappingStart, .key] else #[Token.key]
    .ok ⟨{ scan with
      tokens := scan.tokens.take key.tokenCount ++ marks ++ scan.tokens.drop key.tokenCount
        |>.push .value
      indents := if opens then key.column :: scan.indents else scan.indents
      keyAllowed := false
      candidates := scan.candidates.filter (·.flow ≠ scan.flow) }, 0⟩
  | none => scan.fetchBlockMark .mappingStart .value (scan.flow = 0)

/-- A token that may start a key; `read` gives it and its length behind the first character. -/
def fetchNode (scan : Scan) (read : List Char → Except YamlError (Token × Nat)) :
    Except YamlError Fetched := do
  let scan ← scan.saveCandidate
  let (token, more) ← read scan.cursor.rest.tail
  return ⟨{ scan.add [token] with keyAllowed := false }, more⟩

def fetchQuoted (scan : Scan) (quote : Quote) : Except YamlError Fetched :=
  scan.fetchNode fun text => do
    let scalar ← scanQuoted quote .text text
    return (.scalar scalar.text false, scalar.length)

def fetchBlock (scan : Scan) (folded : Bool) : Except YamlError Fetched := do
  let scan ← scan.dropCandidate
  let scalar ← scanBlock folded scan.indents.head? scan.cursor.rest.tail
  return ⟨{ scan.add [.scalar (codePoints scalar.text) false] with keyAllowed := true },
    scalar.length⟩

def fetchPlain (scan : Scan) : Except YamlError Fetched := do
  let scan ← scan.saveCandidate
  let indent := match scan.indents.head? with
    | some column => column + 1
    | none => 0
  let plain := scanPlain (scan.flow ≠ 0) indent [] false scan.cursor
  return ⟨{ scan.add [.scalar (codePoints plain.text) true] with keyAllowed := plain.broken },
    scan.cursor.rest.length - plain.finish.rest.length - 1⟩

/-- Whether a character can start a plain scalar. -/
def startsPlain (flow : Bool) (c : Char) (next : Option Char) : Bool :=
  !(isGap c || "-?:,[]\x7b\x7d#&*!|>'\"%@\x60".toList.contains c)
    || !endsWord next && (c = '-' || !flow && (c = '?' || c = ':'))

def fetchDocumentMark (scan : Scan) (token : Token) : Except YamlError Fetched :=
  scan.unwindAll.fetchMark token false 2

def fetchDirective (scan : Scan) : Except YamlError Fetched := do
  let scan ← scan.unwindAll.dropCandidate
  let (directive, more) ← scanDirective scan.cursor.rest.tail
  return ⟨{ scan.add [.directive directive] with keyAllowed := false }, more⟩

/-- The token that starts with `c`. -/
def fetch (scan : Scan) (c : Char) : Except YamlError Fetched :=
  let rest := scan.cursor.rest.tail
  let flow : Bool := scan.flow ≠ 0
  let lineStart : Bool := scan.cursor.column = 0
  let endsMark := flow || endsWord rest.head?
  if c = '%' && lineStart then scan.fetchDirective
  else if lineStart && isTriple '-' scan.cursor.rest then scan.fetchDocumentMark .documentStart
  else if lineStart && isTriple '.' scan.cursor.rest then scan.fetchDocumentMark .documentEnd
  else if c = '[' then scan.fetchFlowStart .flowSequenceStart
  else if c = '{' then scan.fetchFlowStart .flowMappingStart
  else if c = ']' then scan.fetchFlowEnd .flowSequenceEnd
  else if c = '}' then scan.fetchFlowEnd .flowMappingEnd
  else if c = ',' then scan.fetchMark .flowEntry true 0
  else if c = '-' && endsWord rest.head? then scan.fetchBlockMark .sequenceStart .entry true
  else if c = '?' && endsMark then scan.fetchBlockMark .mappingStart .key (!flow)
  else if c = ':' && endsMark then scan.fetchValue
  else if c = '*' then scan.fetchNode fun text => do
    let (name, length) ← scanAnchor text
    return (.alias name, length)
  else if c = '&' then scan.fetchNode fun text => do
    let (name, length) ← scanAnchor text
    return (.anchor name, length)
  else if c = '!' then scan.fetchNode fun text => do
    let (tag, length) ← scanTag text
    return (.tag tag, length)
  else if c = '|' && !flow then scan.fetchBlock false
  else if c = '>' && !flow then scan.fetchBlock true
  else if c = '\x27' then scan.fetchQuoted .single
  else if c = '"' then scan.fetchQuoted .double
  else if startsPlain flow c rest.head? then scan.fetchPlain
  else .error .malformed

theorem length_toNextToken_le (scan : Scan) :
    scan.toNextToken.cursor.rest.length ≤ scan.cursor.rest.length := by
  simp [toNextToken]

/-- The token at the cursor, which starts with `c`. -/
def fetchNext (scan : Scan) (c : Char) : Except YamlError Fetched := do
  let scan ← scan.dropStale
  (scan.unwind scan.cursor.column).fetch c

/-- All tokens, at the end of the text. -/
def finish (scan : Scan) : Except YamlError (List Token) := do
  let scan ← scan.dropStale
  let scan ← scan.unwindAll.dropCandidate
  return scan.tokens.toList ++ [.streamEnd]

end Scan

/-- All tokens from a state on, whose candidates are not out of the question. -/
def scanTokens (scan : Scan) : List Token :=
  let place := scan.toNextToken.cursor
  let breaking (error : YamlError) := scan.settled ++ [.broken error]
  match rest_eq : place.rest with
  | [] =>
    match scan.toNextToken.finish with
    | .ok tokens => tokens
    | .error error => breaking error
  | c :: _ =>
    match scan.toNextToken.fetchNext c with
    | .ok fetched =>
      have : scan.toNextToken.cursor.rest.length = _ := congrArg List.length rest_eq
      let next : Scan := { fetched.scan with cursor := place.skip (fetched.more + 1) }
      if next.lacksKey then breaking .malformed else scanTokens next.withoutStale
    | .error error => breaking error
termination_by scan.cursor.rest.length
decreasing_by
  have shorter := scan.length_toNextToken_le
  simp only [Scan.withoutStale, Cursor.length_skip, List.length_cons] at *
  omega

/-- Characters that may stand in a YAML text. -/
def isPrintable (c : Char) : Bool :=
  let n := c.toNat
  n = 0x9 || n = 0xa || n = 0xd || (0x20 ≤ n && n ≤ 0x7e) || n = 0x85 || (0xa0 ≤ n && n ≤ 0xfffd)
    || 0x10000 ≤ n

def tokenize (text : List Char) : List Token :=
  if text.all isPrintable then scanTokens { cursor := { rest := text } } else [.broken .malformed]

end ApiHandbook.Yaml
