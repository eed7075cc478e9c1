import ApiHandbook.Text.CodePoint
import ApiHandbook.Yaml.Cursor
import ApiHandbook.Yaml.Error

/-!
# Scalars of a YAML text

Plain, quoted and block scalars. Each reader gives the text that a scalar stands for and the
number of characters it takes; line breaks inside are folded by the rules of the style.
-/
namespace ApiHandbook.Yaml

open Text (CodePoint codePoints)

/-- Text that stands for a stretch of the source, and the length of the stretch. -/
structure Stretch (α : Type) where
  text : List α
  length : Nat
  deriving DecidableEq, Repr

/-- Puts a stretch of `length` characters in front. -/
def Stretch.behind {α : Type} (text : List α) (length : Nat) (rest : Stretch α) : Stretch α :=
  ⟨text ++ rest.text, length + rest.length⟩

/-- The breaks between two lines folded: a single one is a space. -/
def foldBreaks (first : Char) (further : List Char) : List Char :=
  if first ≠ '\n' then first :: further
  else if further.isEmpty then [' ']
  else further

/-! ## Plain scalars -/

def isFlowMark (c : Char) : Bool := [',', '[', ']', '{', '}'].contains c

/-- The number of characters of a plain part: up to a gap, a colon that ends a key, or a mark of
the flow style. -/
def plainLength (flow : Bool) : List Char → Nat
  | [] => 0
  | c :: rest =>
    if isGap c || flow && (isFlowMark c || c = '?')
        || c = ':' && (endsWord rest.head? || flow && rest.head?.any isFlowMark) then 0
    else plainLength flow rest + 1

theorem plainLength_le (flow : Bool) (text : List Char) : plainLength flow text ≤ text.length := by
  induction text with
  | nil => simp [plainLength]
  | cons c rest ih =>
    unfold plainLength
    split <;> simp_all

/-- The breaks in front of the next text, none if a document mark comes first. `fresh` tells that
a line has just started. -/
def plainBreaks (fresh : Bool) : List Char → Option (List Char) × Nat
  | [] => (some [], 0)
  | c :: rest =>
    if fresh && isDocumentMark (c :: rest) then (none, 0)
    else if c = ' ' then
      let (breaks, length) := plainBreaks false rest
      (breaks, length + 1)
    else if isBreak c then
      let (breaks, length) := plainBreaks true rest
      (breaks.map (breakText c :: ·), length + 1)
    else (some [], 0)

/-- The gap behind a part of a plain scalar, and whether a line ends in it. Its text is empty
where the scalar ends. -/
def plainGap (text : List Char) : Stretch Char × Bool :=
  let spaces := (text.takeWhile (· = ' ')).length
  match text.drop spaces with
  | c :: rest =>
    if isBreak c then
      let (breaks, length) := plainBreaks true rest
      (⟨(breaks.map (foldBreaks (breakText c))).getD [], spaces + 1 + length⟩, true)
    else (⟨List.replicate spaces ' ', spaces⟩, false)
  | [] => (⟨List.replicate spaces ' ', spaces⟩, false)

/-- A scalar with the cursor behind it; `broken` tells that a line has ended there. -/
structure Plain where
  text : List Char
  finish : Cursor
  broken : Bool

/-- Puts text in front. -/
def Plain.behind (text : List Char) (rest : Plain) : Plain := { rest with text := text ++ rest.text }

/-- Reads a plain scalar on. `gap` stands in front of what comes next, `broken` tells that a line
ends in it, and `indent` is the least column of further lines. -/
def scanPlain (flow : Bool) (indent : Nat) (gap : List Char) (broken : Bool) (cursor : Cursor) :
    Plain :=
  match length_eq : plainLength flow cursor.rest with
  | 0 => ⟨[], cursor, broken⟩
  | length + 1 =>
    if cursor.peek = some '#' then ⟨[], cursor, broken⟩
    else
      let part := gap ++ cursor.rest.take (length + 1)
      let behind := cursor.skip (length + 1)
      let (gap, broken) := plainGap behind.rest
      let next := behind.skip gap.length
      if gap.text.isEmpty || next.peek = some '#' || !flow && next.column < indent then
        ⟨part, next, broken⟩
      else
        have := length_eq ▸ plainLength_le flow cursor.rest
        (scanPlain flow indent gap.text broken next).behind part
termination_by cursor.rest.length
decreasing_by simp; omega

/-! ## Quoted scalars -/

inductive Quote where
  | single | double
  deriving DecidableEq, Repr

def Quote.mark : Quote → Char
  | .single => '\x27'
  | .double => '"'

/-- What an escape letter stands for. -/
def escapes : List (Char × Char) :=
  [('0', '\x00'), ('a', '\x07'), ('b', '\x08'), ('t', '\t'), ('\t', '\t'), ('n', '\n'),
    ('v', '\x0b'), ('f', '\x0c'), ('r', '\r'), ('e', '\x1b'), (' ', ' '), ('"', '"'),
    ('\\', '\\'), ('/', '/'), ('N', '\x85'), ('_', '\xa0'), ('L', '\u2028'),
    ('P', '\u2029')]

/-- The number of hexadecimal digits behind an escape letter. -/
def codeLengths : List (Char × Nat) := [('x', 2), ('u', 4), ('U', 8)]

def hexValue? (c : Char) : Option Nat :=
  if '0' ≤ c && c ≤ '9' then some (c.toNat - '0'.toNat)
  else if 'a' ≤ c && c ≤ 'f' then some (c.toNat - 'a'.toNat + 10)
  else if 'A' ≤ c && c ≤ 'F' then some (c.toNat - 'A'.toNat + 10)
  else none

/-- Where a quoted scalar is being read. -/
inductive QuotedMode where
  | text
  /-- Behind the first of two single quotes that stand for one. -/
  | doubled
  /-- Behind spaces and tabs that count if the line goes on. -/
  | spaces (seen : List Char)
  /-- Behind a line break, and further ones. Without a first one nothing is folded. -/
  | breaks (first : Option Char) (further : List Char) (fresh : Bool)
  | escape
  /-- Inside a character code that lacks so many digits. -/
  | code (missing : Nat) (value : Nat)
  deriving DecidableEq, Repr

/-- What one character of a quoted scalar does. -/
inductive QuotedStep where
  | stop (text : List CodePoint)
  | go (text : List CodePoint) (mode : QuotedMode)
  | fail (error : YamlError)
  deriving DecidableEq, Repr

/-- A character that is text, behind `pending` text. -/
def textStep (quote : Quote) (pending : List Char) (c : Char) (rest : List Char) : QuotedStep :=
  let seen := codePoints pending
  if c = quote.mark then
    if quote = .single && rest.head? = some quote.mark then .go seen .doubled
    else .stop seen
  else if c = '\\' && quote = .double then .go seen .escape
  else if isSpaceOrTab c then .go seen (.spaces [c])
  else if isBreak c then .go seen (.breaks (some (breakText c)) [] true)
  else .go (codePoints (pending ++ [c])) .text

/-- The code point of a code. Codes that do not fit into 31 bits are too large to be looked at. -/
def codePointOf (code : Nat) : Except YamlError CodePoint :=
  if code ≥ 0x80000000 then .error .tooLarge
  else if code ≥ 0x110000 then .error .noValue
  else if code.isValidChar then .ok (.char (Char.ofNat code))
  else .ok (.half code)

def codeStep (missing value : Nat) (c : Char) : QuotedStep :=
  match hexValue? c, missing with
  | none, _ => .fail .malformed
  | some digit, missing + 2 => .go [] (.code (missing + 1) (value * 16 + digit))
  | some digit, _ =>
    match codePointOf (value * 16 + digit) with
    | .ok point => .go [point] .text
    | .error error => .fail error

def quotedStep (quote : Quote) (mode : QuotedMode) (c : Char) (rest : List Char) : QuotedStep :=
  match mode with
  | .text => textStep quote [] c rest
  | .doubled => .go [.char c] .text
  | .spaces seen =>
    if isSpaceOrTab c then .go [] (.spaces (seen ++ [c]))
    else if isBreak c then .go [] (.breaks (some (breakText c)) [] true)
    else textStep quote seen c rest
  | .breaks first further fresh =>
    if fresh && isDocumentMark (c :: rest) then .fail .malformed
    else if isSpaceOrTab c then .go [] (.breaks first further false)
    else if isBreak c then .go [] (.breaks first (further ++ [breakText c]) true)
    else textStep quote ((first.map (foldBreaks · further)).getD further) c rest
  | .escape =>
    match escapes.lookup c, codeLengths.lookup c with
    | some meaning, _ => .go [.char meaning] .text
    | none, some length => .go [] (.code length 0)
    | none, none => if isBreak c then .go [] (.breaks none [] true) else .fail .malformed
  | .code missing value => codeStep missing value c

/-- The scalar behind its first quote, through its last one. -/
def scanQuoted (quote : Quote) (mode : QuotedMode) :
    List Char → Except YamlError (Stretch CodePoint)
  | [] => .error .malformed
  | c :: rest =>
    match quotedStep quote mode c rest with
    | .stop text => .ok ⟨text, 1⟩
    | .go text mode => do return (← scanQuoted quote mode rest).behind text 1
    | .fail error => .error error

/-! ## Block scalars -/

/-- What becomes of the breaks at the end of a block scalar. -/
inductive Chomping where
  | clip | strip | keep
  deriving DecidableEq, Repr

structure BlockHeader where
  chomping : Chomping := .clip
  /-- Columns of the text beyond the surrounding block. -/
  indent : Option Nat := none
  length : Nat := 0
  deriving DecidableEq, Repr

def chompingOf? (c : Char) : Option Chomping :=
  if c = '+' then some .keep else if c = '-' then some .strip else none

def digitOf? (c : Char) : Option Nat := if c.isDigit then some (c.toNat - '0'.toNat) else none

/-- The marks behind the bar or angle of a block scalar, in either order. -/
def blockMarks : List Char → BlockHeader
  | [] => {}
  | c :: rest =>
    match chompingOf? c, digitOf? c with
    | some chomping, _ =>
      match rest.head?.bind digitOf? with
      | some digit => ⟨chomping, some digit, 2⟩
      | none => ⟨chomping, none, 1⟩
    | none, some digit =>
      match rest.head?.bind chompingOf? with
      | some chomping => ⟨chomping, some digit, 2⟩
      | none => ⟨.clip, some digit, 1⟩
    | none, none => {}

/-- The length of spaces and a comment through the end of the line; none if text follows. -/
def restOfLineLength? (text : List Char) : Option Nat :=
  let spaces := (text.takeWhile (· = ' ')).length
  let text := text.drop spaces
  let comment := if text.head? = some '#' then (text.takeWhile (!isBreak ·)).length else 0
  match text.drop comment with
  | [] => some (spaces + comment)
  | c :: _ => if isBreak c then some (spaces + comment + 1) else none

def readBlockHeader (text : List Char) : Except YamlError BlockHeader :=
  let header := blockMarks text
  let rest := text.drop header.length
  if header.indent = some 0 || !(rest.head?.all fun c => c = ' ' || isBreak c) then
    .error .malformed
  else
    match restOfLineLength? rest with
    | some length => .ok { header with length := header.length + length }
    | none => .error .malformed

/-- Breaks in front of a line of a block scalar, the characters passed, and the column reached. -/
structure BlockGap where
  breaks : List Char
  length : Nat
  column : Nat
  /-- The rightmost column that spaces have reached. -/
  widest : Nat
  deriving DecidableEq, Repr

/-- Passes over breaks, and over spaces up to a column, if there is a limit. -/
def blockGap (limit : Option Nat) (column widest : Nat) : List Char → BlockGap
  | [] => ⟨[], 0, column, widest⟩
  | c :: rest =>
    if c = ' ' && limit.all (column < ·) then
      let gap := blockGap limit (column + 1) (max widest (column + 1)) rest
      { gap with length := gap.length + 1 }
    else if isBreak c then
      let gap := blockGap limit 0 widest rest
      { gap with breaks := breakText c :: gap.breaks, length := gap.length + 1 }
    else ⟨[], 0, column, widest⟩

/-- What separates two lines of a block scalar. In the folded style a single break between lines
that start with text is a space. -/
def lineJoint (folded : Bool) (lineBreak : Char) (line next : List Char) (breaks : List Char) :
    List Char :=
  if folded && lineBreak = '\n' && line.head?.all (!isSpaceOrTab ·)
      && next.head?.all (!isSpaceOrTab ·) then
    if breaks.isEmpty then [' '] else breaks
  else lineBreak :: breaks

def chompEnd (chomping : Chomping) (lineBreak : List Char) (breaks : List Char) : List Char :=
  match chomping with
  | .strip => []
  | .clip => lineBreak
  | .keep => lineBreak ++ breaks

/-- The lines of a block scalar that starts at a line of column `indent`. -/
def blockLines (folded : Bool) (chomping : Chomping) (indent : Nat) : List Char → Stretch Char
  | [] => ⟨[], 0⟩
  | c :: rest =>
    let more := (rest.takeWhile (!isBreak ·)).length
    let line := c :: rest.take more
    match after_eq : rest.drop more with
    | [] => ⟨line, 1 + more⟩
    | b :: after =>
      let lineBreak := breakText b
      let gap := blockGap (some indent) 0 0 after
      let next := after.drop gap.length
      let length := 1 + more + 1 + gap.length
      if gap.column = indent && !next.isEmpty then
        have := congrArg List.length after_eq
        (blockLines folded chomping indent next).behind
          (line ++ lineJoint folded lineBreak line next gap.breaks) length
      else ⟨line ++ chompEnd chomping [lineBreak] gap.breaks, length⟩
termination_by text => text.length
decreasing_by simp at *; omega

/-- The scalar behind its bar or angle, in a block whose lines start at column `outer`. -/
def scanBlock (folded : Bool) (outer : Option Nat) (text : List Char) :
    Except YamlError (Stretch Char) := do
  let header ← readBlockHeader text
  let text := text.drop header.length
  let least := match outer with
    | some column => column + 1
    | none => 1
  let limit := header.indent.map (least + · - 1)
  let gap := blockGap limit 0 0 text
  let indent := limit.getD (max least gap.widest)
  let lines := text.drop gap.length
  if gap.column = indent && !lines.isEmpty then
    return (blockLines folded header.chomping indent lines).behind gap.breaks
      (header.length + gap.length)
  else return ⟨chompEnd header.chomping [] gap.breaks, header.length + gap.length⟩

end ApiHandbook.Yaml
