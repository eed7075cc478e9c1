import ApiHandbook.Proofs.Source.Printing
import ApiHandbook.Proofs.Text.CharSets

/-!
# Tokens of printed declarations

Each line of printed declarations is tokenized by itself. Texts that are put together into a line
keep their tokens as long as what follows a text cannot belong to its last token.
-/
namespace ApiHandbook.Source
open Text

/-! ## Scanning on from a place in a text -/

/-- A token without its place. -/
structure Word where
  kind : TokenKind
  text : String
  segments : List String := []
  deriving DecidableEq, Repr

namespace Word

def name (text : String) : Word := { kind := .name, text }

def mark (text : String) : Word := { kind := .mark, text }

def token (word : Word) (line : Nat) (startsLine : Bool) (comments : List String) : Token :=
  ⟨word.kind, word.text, line, startsLine, comments, word.segments⟩

end Word

/-- The tokens of words on one line; only the first of them can stand behind a line break and
comments. -/
def lineTokens (line : Nat) (startsLine : Bool) (comments : List String) : List Word → List Token
  | [] => []
  | word :: rest => word.token line startsLine comments :: lineTokens line false [] rest

theorem lineTokens_append (line : Nat) (startsLine : Bool) (comments : List String)
    {words : List Word} (nonempty : words ≠ []) (more : List Word) :
    lineTokens line startsLine comments (words ++ more) =
      lineTokens line startsLine comments words ++ lineTokens line false [] more := by
  induction words generalizing startsLine comments with
  | nil => exact absurd rfl nonempty
  | cons word rest ih =>
    rw [List.cons_append, lineTokens, lineTokens, List.cons_append]
    cases rest with
    | nil => rfl
    | cons next rest => rw [ih false [] (List.cons_ne_nil _ _)]

def TokenStream.behind (tokens : List Token) (stream : TokenStream) : TokenStream :=
  { stream with tokens := tokens ++ stream.tokens }

/-- Tokenizes what follows on line `line`. -/
def scan (line : Nat) (startsLine : Bool) (comments : List String) (text : List Char) :
    Except SyntaxError TokenStream :=
  (piecesFrom line text).map (tokensFrom line startsLine comments)

theorem tokenize_eq_scan (text : List Char) : tokenize text = scan 1 true [] text := by
  unfold tokenize pieces scan
  cases piecesFrom 1 text <;> rfl

theorem map_behind_append (first second : List Token) (scanned : Except SyntaxError TokenStream) :
    (scanned.map (TokenStream.behind second)).map (TokenStream.behind first) =
      scanned.map (TokenStream.behind (first ++ second)) := by
  cases scanned with
  | error fault => rfl
  | ok stream => simp [Except.map, TokenStream.behind]

theorem piecesFrom_front {line breaks : Nat} {c : Char} {more rest : List Char} {kind : PieceKind}
    (front : frontExtent line c (more ++ rest) = .ok ⟨kind, more.length, breaks⟩) :
    piecesFrom line (c :: more ++ rest) =
      (piecesFrom (line + breaks) rest).map (⟨kind, c :: more, breaks⟩ :: ·) := by
  rw [List.cons_append, piecesFrom, front]
  simp only [bind, Except.bind, List.drop_left, List.take_left]
  cases piecesFrom (line + breaks) rest <;> rfl

theorem scan_front {line breaks : Nat} {startsLine : Bool} {comments : List String} {c : Char}
    {more rest : List Char} {kind : PieceKind}
    (front : frontExtent line c (more ++ rest) = .ok ⟨kind, more.length, breaks⟩) :
    scan line startsLine comments (c :: more ++ rest) =
      (piecesFrom (line + breaks) rest).map fun others =>
        tokensFrom line startsLine comments (⟨kind, c :: more, breaks⟩ :: others) := by
  rw [scan, piecesFrom_front front]
  cases piecesFrom (line + breaks) rest <;> rfl

theorem scan_lineBreak (line : Nat) (startsLine : Bool) (comments : List String)
    (rest : List Char) :
    scan line startsLine comments ('\n' :: rest) = scan (line + 1) true comments rest := by
  have front : frontExtent line '\n' ([] ++ rest) = .ok ⟨.lineBreak, 0, 1⟩ := rfl
  exact scan_front front

theorem scan_space (line : Nat) (startsLine : Bool) (comments : List String) {c : Char}
    (rest : List Char) (solid : isInlineBlank c = false) :
    scan line startsLine comments (' ' :: c :: rest) =
      scan line startsLine comments (c :: rest) := by
  have front : frontExtent line ' ' ([] ++ c :: rest) = .ok ⟨.blank, 0, 0⟩ := by
    have run : ((c :: rest).takeWhile isInlineBlank).length = 0 := by
      rw [List.takeWhile_cons_of_neg (by simp [solid])]
      rfl
    change Except.ok (⟨.blank, ((c :: rest).takeWhile isInlineBlank).length, 0⟩ : Extent) = _
    rw [run]
  exact scan_front front

/-! ## Texts that are spelled out on a line -/

/-- Whether a name ends in front of a character. -/
def endsName (c : Char) : Bool := !isNameChar c

/-- Wherever a text stands on a line in front of a character that may follow it, it gives these
words. It does not begin with a blank. -/
structure Spells (follow : Char → Bool) (text : List Char) (words : List Word) : Prop where
  nonempty : words ≠ []
  solid : ∃ c more, text = c :: more ∧ isInlineBlank c = false
  scanned : ∀ (c : Char) (rest : List Char), follow c = true → ∀ line startsLine comments,
    scan line startsLine comments (text ++ c :: rest) =
      (scan line false [] (c :: rest)).map
        (.behind (lineTokens line startsLine comments words))

namespace Spells
variable {follow further : Char → Bool} {text other : List Char} {words others : List Word}

theorem mono (spells : Spells follow text words)
    (weaker : ∀ c, further c = true → follow c = true) : Spells further text words :=
  ⟨spells.nonempty, spells.solid, fun c rest follows => spells.scanned c rest (weaker c follows)⟩

theorem append (spells : Spells follow text words) (next : Spells further other others)
    (meets : ∀ c ∈ other.head?, follow c = true) :
    Spells further (text ++ other) (words ++ others) := by
  obtain ⟨c, more, rfl, solid⟩ := next.solid
  refine ⟨List.append_ne_nil_of_left_ne_nil spells.nonempty _, ?_, ?_⟩
  · obtain ⟨first, rest, rfl, first_solid⟩ := spells.solid
    exact ⟨first, rest ++ c :: more, rfl, first_solid⟩
  · intro d rest follows line startsLine comments
    have meets_c : follow c = true := meets c rfl
    rw [List.append_assoc, List.cons_append, spells.scanned c _ meets_c, ← List.cons_append,
      next.scanned d rest follows, map_behind_append,
      lineTokens_append line startsLine comments spells.nonempty]

theorem append_cons {c : Char} (spells : Spells follow text words)
    (next : Spells further (c :: other) others) (meets : follow c = true) :
    Spells further (text ++ c :: other) (words ++ others) := by
  apply spells.append next
  intro d at_head
  cases at_head
  exact meets

theorem appendSpaced (spells : Spells follow text words) (next : Spells further other others)
    (space : follow ' ' = true) : Spells further (text ++ ' ' :: other) (words ++ others) := by
  obtain ⟨c, more, rfl, solid⟩ := next.solid
  refine ⟨List.append_ne_nil_of_left_ne_nil spells.nonempty _, ?_, ?_⟩
  · obtain ⟨first, rest, rfl, first_solid⟩ := spells.solid
    exact ⟨first, rest ++ ' ' :: c :: more, rfl, first_solid⟩
  · intro d rest follows line startsLine comments
    rw [List.append_assoc, List.cons_append, spells.scanned ' ' _ space, List.cons_append,
      scan_space _ _ _ _ solid, ← List.cons_append, next.scanned d rest follows,
      map_behind_append, lineTokens_append line startsLine comments spells.nonempty]

/-- A whole line, with the line break at its end. -/
theorem line (spells : Spells follow text words) (ends : follow '\n' = true) (number : Nat)
    (startsLine : Bool) (comments : List String) (rest : List Char) :
    scan number startsLine comments (text ++ '\n' :: rest) =
      (scan (number + 1) true [] rest).map
        (.behind (lineTokens number startsLine comments words)) := by
  rw [spells.scanned '\n' rest ends, scan_lineBreak]

end Spells

/-- A text that is cut off as one piece spells one word. -/
theorem spells_piece {follow : Char → Bool} {c : Char} {more : List Char} {word : Word}
    (kind : PieceKind) (solid : isInlineBlank c = false)
    (front : ∀ d rest line, follow d = true →
      frontExtent line c (more ++ d :: rest) = .ok ⟨kind, more.length, 0⟩)
    (kept : ∀ line startsLine comments others,
      tokensFrom line startsLine comments (⟨kind, c :: more, 0⟩ :: others) =
        (tokensFrom line false [] others).cons (word.token line startsLine comments)) :
    Spells follow (c :: more) [word] := by
  refine ⟨List.cons_ne_nil _ _, ⟨c, more, rfl, solid⟩, ?_⟩
  intro d rest follows line startsLine comments
  rw [scan_front (front d rest line follows), Nat.add_zero, scan]
  cases piecesFrom line (d :: rest) with
  | error fault => rfl
  | ok others =>
    simp only [Except.map, kept]
    rfl

/-! ## Names, marks, numbers and literals -/

/-- What passes a test is nothing that fails it. -/
theorem ne_of_test {α : Type} {test : α → Bool} {c : α} (inside : test c = true) (other : α)
    (outside : test other = false) : ¬ c = other := by
  rintro rfl
  rw [inside] at outside
  cases outside

theorem isInlineBlank_of_test {test : Char → Bool} {c : Char} (inside : test c = true)
    (outside : [' ', '\t', '\r', '\x0c', '\x0b'].any test = false) :
    isInlineBlank c = false := by
  have apart : ∀ blank ∈ [' ', '\t', '\r', '\x0c', '\x0b'], ¬ c = blank := by
    rintro blank member rfl
    exact List.any_eq_false.mp outside c member inside
  simpa [isInlineBlank, and_assoc] using apart

theorem isInlineBlank_of_isNameStart {c : Char} (start : isNameStart c = true) :
    isInlineBlank c = false :=
  isInlineBlank_of_test start (by decide)

theorem isInlineBlank_of_isDecimal {c : Char} (digit : isDecimal c = true) :
    isInlineBlank c = false :=
  isInlineBlank_of_test digit (by decide)

theorem frontExtent_name {line : Nat} {c : Char} {rest : List Char}
    (start : isNameStart c = true) :
    frontExtent line c rest = .ok ⟨.name, (rest.takeWhile isNameChar).length, 0⟩ := by
  have apart := ne_of_test start
  have no_number : numberLength c rest = none := by
    rw [numberLength, if_neg (apart '0' rfl), not_isDecimal_of_isNameStart start]
    rfl
  have word : wordExtent? c rest = some ⟨.name, (rest.takeWhile isNameChar).length, 0⟩ := by
    rw [wordExtent?, no_number, nameLength, if_pos start]
    rfl
  rw [frontExtent, if_neg (by simp [apart '/' rfl]), if_neg (apart '"' rfl),
    if_neg (by simp [isInlineBlank_of_isNameStart start]), if_neg (apart '\n' rfl),
    if_neg (by simp [apart '/' rfl]), word]

theorem takeWhile_stops {test : Char → Bool} {text rest : List Char} {c : Char}
    (inside : ∀ d ∈ text, test d = true) (outside : test c = false) :
    (text ++ c :: rest).takeWhile test = text := by
  rw [List.takeWhile_append_of_pos inside, List.takeWhile_cons_of_neg (by simp [outside]),
    List.append_nil]

theorem takeWhile_before {test : Char → Bool} {text rest : List Char}
    (inside : ∀ c ∈ text, test c = true) (outside : ∀ c ∈ rest.head?, test c = false) :
    (text ++ rest).takeWhile test = text := by
  cases rest with
  | nil => rw [List.append_nil, List.takeWhile_eq_self_iff.mpr inside]
  | cons c rest => exact takeWhile_stops inside (outside c rfl)

theorem toList_ne_nil_of_isWord {text : String} (word : isWord text = true) : text.toList ≠ [] := by
  intro empty
  rw [isWord, empty] at word
  cases word

theorem spells_name {text : String} (word : isWord text = true) :
    Spells endsName text.toList [.name text] := by
  have named := nameText_of_identifier word
  have chars := isIdentifier_isNameChar word
  obtain ⟨c, more, text_eq⟩ := List.exists_cons_of_ne_nil (toList_ne_nil_of_isWord word)
  rw [isWord, text_eq, isIdentifier, Bool.and_eq_true] at word
  rw [text_eq] at named chars ⊢
  apply spells_piece .name (isInlineBlank_of_isNameStart word.1)
  · intro d rest line ends
    have outside : isNameChar d = false := by simpa [endsName] using ends
    rw [frontExtent_name word.1,
      takeWhile_stops (fun e member => chars e (List.mem_cons_of_mem _ member)) outside]
  · intro line startsLine comments others
    have same : nameText (c :: more) = text := by rw [← String.toList_inj, named, text_eq]
    rw [tokensFrom, same]
    rfl

/-- The marks that are no part of a longer one. -/
def loneMarks : List Char := ['{', '}', '(', ')', '[', ']', ':', ',', '=', '?']

theorem spells_mark {c : Char} (lone : c ∈ loneMarks) :
    Spells (fun _ => true) [c] [.mark (String.ofList [c])] := by
  have front : ∀ rest line, frontExtent line c rest = .ok ⟨.mark, 0, 0⟩ := by
    intro rest line
    simp only [loneMarks, List.mem_cons, List.not_mem_nil, or_false] at lone
    rcases lone with rfl | rfl | rfl | rfl | rfl | rfl | rfl | rfl | rfl | rfl <;> rfl
  have solid : isInlineBlank c = false := by
    simp only [loneMarks, List.mem_cons, List.not_mem_nil, or_false] at lone
    rcases lone with rfl | rfl | rfl | rfl | rfl | rfl | rfl | rfl | rfl | rfl <;> rfl
  exact spells_piece .mark solid (fun d rest line _ => front _ line) fun _ _ _ _ => rfl

theorem spells_point : Spells (· ≠ '.') ['.'] [.mark "."] := by
  apply spells_piece .mark rfl
  · intro d rest line other
    have different : d ≠ '.' := by simpa using other
    have length : markLength '.' (d :: rest) = some 0 := by
      unfold markLength
      split <;> simp_all [markChars]
    have word : wordExtent? '.' (d :: rest) = some ⟨.mark, 0, 0⟩ := by
      rw [wordExtent?, length]
      rfl
    unfold frontExtent
    rw [List.nil_append, word]
    rfl
  · intro _ _ _ _
    rfl

theorem frontExtent_number {line length : Nat} {c : Char} {rest : List Char}
    (digit : isDecimal c = true) (found : numberLength c rest = some length) :
    frontExtent line c rest = .ok ⟨.number, length, 0⟩ := by
  have apart := ne_of_test digit
  have word : wordExtent? c rest = some ⟨.number, length, 0⟩ := by
    rw [wordExtent?, found]
    rfl
  rw [frontExtent, if_neg (by simp [apart '/' rfl]), if_neg (apart '"' rfl), 
    if_neg (by simp [isInlineBlank_of_isDecimal digit]), if_neg (apart '\n' rfl),
    if_neg (by simp [apart '/' rfl]), word]

theorem radixLength_line {more rest : List Char} (whole : radixLength more = some more.length) :
    radixLength (more ++ '\n' :: rest) = some more.length := by
  cases more with
  | nil => cases whole
  | cons r digits =>
    simp only [radixLength, List.length_cons] at whole
    split at whole
    · rename_i radix
      have all : digits.takeWhile isHexOrUnderscore = digits := by
        apply (List.takeWhile_prefix _).eq_of_length
        simp only [Option.some.injEq] at whole
        omega
      have hex : ∀ d ∈ digits, isHexOrUnderscore d = true := List.takeWhile_eq_self_iff.mp all
      have run : (digits ++ '\n' :: rest).takeWhile isHexOrUnderscore = digits :=
        takeWhile_stops hex rfl
      rw [List.cons_append, radixLength]
      simp only [run]
      rw [all] at radix
      rw [if_pos radix, List.length_cons, Nat.add_comm]
    · cases whole

theorem radixLength_decimal {more rest : List Char}
    (decimal : ∀ d ∈ more, isDecimalOrUnderscore d = true) :
    radixLength (more ++ '\n' :: rest) = none := by
  cases more with
  | nil => rfl
  | cons r digits =>
    have apart := ne_of_test (decimal r List.mem_cons_self)
    rw [List.cons_append, radixLength]
    exact if_neg (by simp [apart 'x' rfl, apart 'o' rfl, apart 'b' rfl])

theorem numberLength_line {c : Char} {more : List Char} (rest : List Char)
    (whole : isWholeNumber (c :: more) = true) :
    isDecimal c = true ∧ numberLength c (more ++ '\n' :: rest) = some more.length := by
  have plain : isDecimal c = true → (∀ d ∈ more, isDecimalOrUnderscore d = true) →
      numberLength c (more ++ '\n' :: rest) = some more.length := by
    intro digit decimal
    have radix : (if c = '0' then radixLength (more ++ '\n' :: rest) else none) = none := by
      split
      · exact radixLength_decimal decimal
      · rfl
    have run : (more ++ '\n' :: rest).takeWhile isDecimalOrUnderscore = more :=
      takeWhile_stops decimal rfl
    have no_fraction : fractionLength ('\n' :: rest) = 0 := rfl
    have no_exponent : exponentLength ('\n' :: rest) = 0 := rfl
    rw [numberLength, radix]
    simp only [digit, if_true, run, List.drop_left, no_fraction, Nat.add_zero, no_exponent]
  unfold isWholeNumber at whole
  split at whole
  · rename_i digits same
    cases same
    refine ⟨rfl, ?_⟩
    simp only [Bool.or_eq_true, decide_eq_true_eq, List.all_eq_true] at whole
    rcases whole with radix | decimal
    · rw [numberLength, if_pos rfl, radixLength_line radix]
    · exact plain rfl decimal
  · rename_i first digits other same
    cases same
    simp only [Bool.and_eq_true, List.all_eq_true] at whole
    exact ⟨whole.1, plain whole.1 whole.2⟩
  · cases whole

theorem spells_number {text : String} (whole : isWholeNumber text.toList = true) :
    Spells (· = '\n') text.toList [{ kind := .number, text }] := by
  have nonempty : text.toList ≠ [] := by
    intro empty
    rw [empty] at whole
    cases whole
  obtain ⟨c, more, text_eq⟩ := List.exists_cons_of_ne_nil nonempty
  rw [text_eq] at whole ⊢
  have digit := (numberLength_line [] whole).1
  apply spells_piece .number (isInlineBlank_of_isDecimal digit)
  · intro d rest line ends
    have lineBreak : d = '\n' := by simpa using ends
    rw [lineBreak]
    exact frontExtent_number digit (numberLength_line rest whole).2
  · intro line startsLine comments others
    have same : String.ofList (c :: more) = text := by rw [← text_eq, String.ofList_toList]
    rw [tokensFrom, same]
    rfl

/-- Reading on inside a literal that has nothing escaped or spliced in. -/
theorem scanLiteral_plain {content rest : List Char} {literal : OpenLiteral} {length line : Nat}
    (single : literal.fence = .single)
    (plain : ∀ c ∈ content, c ≠ '"' ∧ c ≠ '\\' ∧ c ≠ '\n') :
    scanLiteral (.text literal) [] length 0 line (content ++ '"' :: rest) =
      .ok ⟨({ literal with current := content.reverse ++ literal.current }).flush.segments,
        length + content.length + 1, 0⟩ := by
  induction content generalizing literal length with
  | nil =>
    obtain ⟨fence, start, segments, current⟩ := literal
    cases single
    rw [List.nil_append, scanLiteral.eq_def]
    rfl
  | cons c content ih =>
    obtain ⟨no_quote, no_escape, no_break⟩ := plain c List.mem_cons_self
    have step : scanLiteral (.text literal) [] length 0 line (c :: (content ++ '"' :: rest)) =
        scanLiteral (.text (literal.push c)) [] (length + 1) 0 line (content ++ '"' :: rest) := by
      rw [scanLiteral.eq_def]
      simp only [no_quote, no_escape, no_break, if_false]
    rw [List.cons_append, step, ih (by exact single) fun d member =>
      plain d (List.mem_cons_of_mem _ member)]
    simp [OpenLiteral.push]
    omega

theorem literalExtent_plain {content rest : List Char} {line : Nat}
    (plain : ∀ c ∈ content, c ≠ '"' ∧ c ≠ '\\' ∧ c ≠ '\n') :
    literalExtent line (content ++ '"' :: '\n' :: rest) =
      .ok ⟨if content = [] then [] else [String.ofList content], content.length + 1, 0⟩ := by
  have single : literalExtent line (content ++ '"' :: '\n' :: rest) =
      scanLiteral (.text ⟨.single, line, [], []⟩) [] 0 0 line (content ++ '"' :: '\n' :: rest) := by
    cases content with
    | nil => rfl
    | cons c content =>
      have no_quote := (plain c List.mem_cons_self).1
      rw [literalExtent.eq_def]
      split
      · simp_all
      · rfl
  rw [single, scanLiteral_plain rfl plain, Nat.zero_add, List.append_nil]
  cases content with
  | nil => rfl
  | cons c content => simp [OpenLiteral.flush]

theorem frontExtent_string {content : String} {rest : List Char} {line : Nat}
    (plain : ∀ c ∈ content.toList, c ≠ '"' ∧ c ≠ '\\' ∧ c ≠ '\n') :
    frontExtent line '"' (content.toList ++ '"' :: '\n' :: rest) =
      .ok ⟨.literal (if content = "" then [] else [content]),
        (content.toList ++ ['"']).length, 0⟩ := by
  rw [frontExtent, if_neg (by simp), if_pos rfl, literalExtent_plain plain]
  simp [bind, Except.bind, pure, Except.pure]

theorem spells_string {content : String}
    (plain : ∀ c ∈ content.toList, c ≠ '"' ∧ c ≠ '\\' ∧ c ≠ '\n') :
    Spells (· = '\n') ("\"" ++ content ++ "\"").toList
      [{ kind := .string, text := "\"" ++ content ++ "\"",
         segments := if content = "" then [] else [content] }] := by
  have text_eq : ("\"" ++ content ++ "\"").toList = '"' :: (content.toList ++ ['"']) := by simp
  rw [text_eq]
  apply spells_piece (.literal (if content = "" then [] else [content])) rfl
  · intro d rest line ends
    have lineBreak : d = '\n' := by simpa using ends
    rw [lineBreak, List.append_assoc, List.singleton_append]
    exact frontExtent_string plain
  · intro line startsLine comments others
    have same : String.ofList ('"' :: (content.toList ++ ['"'])) = "\"" ++ content ++ "\"" := by
      rw [← text_eq, String.ofList_toList]
    rw [tokensFrom, same]
    rfl

end ApiHandbook.Source
