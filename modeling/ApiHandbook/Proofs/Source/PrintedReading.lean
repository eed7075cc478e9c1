import ApiHandbook.Proofs.Source.PrintedTokens

/-!
# Reading printed types, values, fields and cases

Each step of the reader takes the tokens of what was printed and stops in front of what follows.
A field or case ends where the next line begins with a modifier, a keyword or a closing brace.
-/
namespace ApiHandbook.Source

/-! ## Steps that read a value and stop -/

/-- A step reads this value and leaves these tokens. -/
def Takes {tokens : List Token} {α : Type} (step : Except SyntaxError (Reading tokens α))
    (value : α) (rest : List Token) : Prop :=
  ∃ tail shorter, step = .ok ⟨value, rest, tail, shorter⟩

/-- The same of a step that may take nothing. -/
def Passes {tokens : List Token} {α : Type} (step : Except SyntaxError (Advance tokens α))
    (value : α) (rest : List Token) : Prop :=
  ∃ tail, step = .ok ⟨value, rest, tail⟩

theorem takes_ok {tokens rest : List Token} {α : Type} {reading : Reading tokens α} {value : α}
    (value_eq : reading.value = value) (rest_eq : reading.rest = rest) :
    Takes (.ok reading) value rest := by
  subst value_eq rest_eq
  exact ⟨_, _, rfl⟩

/-- Words in the middle of a line, in front of further tokens. -/
def inLine (line : Nat) (words : List Word) (rest : List Token) : List Token :=
  lineTokens line false [] words ++ rest

@[simp] theorem inLine_nil (line : Nat) (rest : List Token) : inLine line [] rest = rest := rfl

@[simp] theorem inLine_cons (line : Nat) (word : Word) (words : List Word) (rest : List Token) :
    inLine line (word :: words) rest = word.token line false [] :: inLine line words rest := rfl

@[simp] theorem inLine_append (line : Nat) (words more : List Word) (rest : List Token) :
    inLine line (words ++ more) rest = inLine line words (inLine line more rest) := by
  induction words with
  | nil => rfl
  | cons word words ih => rw [List.cons_append, inLine_cons, inLine_cons, ih]

section
variable (word : Word) (line : Nat) (startsLine : Bool) (comments : List String)

@[simp] theorem Word.token_kind : (word.token line startsLine comments).kind = word.kind := rfl

@[simp] theorem Word.token_text : (word.token line startsLine comments).text = word.text := rfl

@[simp] theorem Word.token_line : (word.token line startsLine comments).line = line := rfl

@[simp] theorem Word.token_startsLine :
    (word.token line startsLine comments).startsLine = startsLine := rfl

variable (text other : String)

@[simp] theorem Word.name_kind : (Word.name text).kind = .name := rfl

@[simp] theorem Word.name_text : (Word.name text).text = text := rfl

@[simp] theorem Word.mark_kind : (Word.mark text).kind = .mark := rfl

@[simp] theorem Word.mark_text : (Word.mark text).text = text := rfl

@[simp] theorem Word.name_reads :
    ((Word.name text).token line startsLine comments).reads other = decide (text = other) := rfl

@[simp] theorem Word.mark_reads :
    ((Word.mark text).token line startsLine comments).reads other = decide (text = other) := rfl

variable (rest : List Token)

theorem accept?_mark : accept? text ((Word.mark text).token line startsLine comments :: rest) =
    some (.one () _ rest) := by
  rw [accept?, Word.mark_reads, if_pos (decide_eq_true rfl)]

theorem acceptName?_name : acceptName? ((Word.name text).token line startsLine comments :: rest) =
    some (.one ((Word.name text).token line startsLine comments) _ rest) := rfl

end

/-- The next token, if there is one, has none of these texts. -/
def Clear (texts : List String) (rest : List Token) : Prop :=
  ∀ token ∈ rest.head?, token.text ∉ texts

theorem Clear.not_reads {texts : List String} {token : Token} {rest : List Token}
    (clear : Clear texts (token :: rest)) {text : String} (member : text ∈ texts) :
    token.reads text = false := by
  have different : token.text ≠ text := fun same => clear token rfl (same ▸ member)
  simp [Token.reads, different]

theorem Clear.accept? {texts : List String} {rest : List Token} (clear : Clear texts rest)
    {text : String} (member : text ∈ texts) : accept? text rest = none := by
  cases rest with
  | nil => rfl
  | cons token rest => rw [Source.accept?, clear.not_reads member, if_neg Bool.false_ne_true]

theorem Clear.isAt {texts : List String} {rest : List Token} (clear : Clear texts rest)
    {text : String} (member : text ∈ texts) : isAt text rest = false := by
  cases rest with
  | nil => rfl
  | cons token rest => exact clear.not_reads member

theorem ne_of_isWord {text : String} (word : isWord text = true) (other : String)
    (no_word : isWord other = false) : ¬ text = other :=
  ne_of_test word other no_word

/-! ## Types -/

theorem pathWords_cons (part : String) (parts : List String) :
    pathWords (part :: parts) =
      .name part :: parts.flatMap fun other => [.mark ".", .name other] := by
  induction parts generalizing part with
  | nil => rfl
  | cons other parts ih =>
    have later := ih other
    simp_all [pathWords]

/-- Marks that make a path go on. -/
def pathMarks : List String := ["<", "."]

/-- Marks that make a type go on. -/
def shapeMarks : List String := pathMarks ++ ["?", "!", "->"]

theorem Clear.mono {texts fewer : List String} {rest : List Token} (clear : Clear texts rest)
    (subset : fewer ⊆ texts) : Clear fewer rest :=
  fun token at_head member => clear token at_head (subset member)

theorem clear_word {texts comments : List String} {word : Word} {line : Nat} {startsLine : Bool}
    {rest : List Token} (other : word.text ∉ texts) :
    Clear texts (word.token line startsLine comments :: rest) := by
  intro token at_head
  cases at_head
  exact other

theorem skipArguments_stay {endLine : Nat} {tokens : List Token} (clear : Clear ["<"] tokens) :
    skipArguments endLine tokens = .ok (.stay tokens false) := by
  have no_arguments : tokens.head?.any (fun token => token.reads "<" && !token.startsLine) =
      false := by
    cases tokens with
    | nil => rfl
    | cons token rest => simp [clear.not_reads (by decide : "<" ∈ ["<"])]
  rw [skipArguments, no_arguments, if_neg Bool.false_ne_true]

theorem readPath_names (endLine line : Nat) {rest : List Token} (clear : Clear pathMarks rest)
    (names : List String) :
    Passes (readPath endLine
        (inLine line (names.flatMap fun name => [.mark ".", .name name]) rest))
      (false, names) rest := by
  induction names with
  | nil =>
    have no_point : acceptPointName? rest = none := by
      rw [acceptPointName?, clear.accept? (by decide)]
      rfl
    rw [List.flatMap_nil, inLine_nil, readPath, skipArguments_stay (clear.mono (by decide))]
    simp only [bind, Except.bind, Advance.stay, no_point]
    exact ⟨_, rfl⟩
  | cons name names ih =>
    obtain ⟨tail, further⟩ := ih
    rw [List.flatMap_cons, inLine_append, inLine_cons, inLine_cons, inLine_nil, readPath,
      skipArguments_stay (clear_word (by decide))]
    have point : ∀ rest, acceptPointName?
        ((Word.mark ".").token line false [] :: (Word.name name).token line false [] :: rest) =
          some ((Reading.one name _ rest).behind (List.suffix_cons _ _)) := fun _ => rfl
    simp only [bind, Except.bind, Advance.stay, point, Reading.behind, Reading.one, further]
    exact ⟨_, rfl⟩

theorem readTypeHead_path (endLine line : Nat) {parts : List String} {rest : List Token}
    (path : IsTypePath parts) (clear : Clear pathMarks rest) :
    Takes (readTypeHead endLine (inLine line (pathWords parts) rest)) (.path (dotted parts))
      rest := by
  obtain ⟨part, others, rfl⟩ := List.exists_cons_of_ne_nil path.nonempty
  have word := ne_of_isWord (path.words part List.mem_cons_self)
  have plain : existentialWords.contains part = false := by simpa using path.first part rfl
  obtain ⟨tail, names⟩ := readPath_names endLine line clear others
  rw [pathWords_cons, inLine_cons, readTypeHead]
  simp only [Word.name_reads, word "[" (by decide), word "(" (by decide), Word.token_kind,
    Word.token_text, Word.name_kind, Word.name_text, plain, names, bind, Except.bind, decide_false,
    Bool.false_eq_true, if_false, ne_eq, not_true]
  exact ⟨_, _, rfl⟩

theorem passWhile_append {test : Token → Bool} {front rest : List Token}
    (pass : ∀ token ∈ front, test token = true)
    (stop : ∀ token ∈ rest.head?, test token = false) :
    ∃ tail, passWhile test (front ++ rest) = ⟨front.length, rest, tail⟩ := by
  have taken : rest.takeWhile test = [] := by
    cases rest with
    | nil => rfl
    | cons token rest => simp [stop token rfl]
  have left : rest.dropWhile test = rest := by
    cases rest with
    | nil => rfl
    | cons token rest => simp [stop token rfl]
  refine ⟨List.suffix_append front rest, ?_⟩
  simp only [passWhile, List.takeWhile_append_of_pos pass, List.dropWhile_append_of_pos pass, taken,
    left, List.append_nil]

/-- A type with a given head and optional marks, in front of what cannot belong to it. -/
theorem readShape_head {endLine : Nat} {tokens rest : List Token} {head : TypeHead}
    (marks : List Token) (taken : Takes (readTypeHead endLine tokens) head (marks ++ rest))
    (optional : ∀ mark ∈ marks, mark.isOptionalMark = true)
    (ends : ∀ token ∈ rest.head?, token.isOptionalMark = false ∧ token.reads "->" = false) :
    Takes (readShape endLine tokens) (head.shape marks.length (textBefore rest tokens)) rest := by
  obtain ⟨tail, shorter, head_eq⟩ := taken
  obtain ⟨marks_tail, marks_eq⟩ :=
    passWhile_append optional fun token at_head => (ends token at_head).1
  have no_arrow : accept? "->" (passWhile Token.isOptionalMark (marks ++ rest)).rest = none := by
    rw [marks_eq]
    cases rest with
    | nil => rfl
    | cons token rest => rw [accept?, (ends token rfl).2, if_neg Bool.false_ne_true]
  rw [readShape, head_eq]
  simp only [bind, Except.bind]
  rw [no_arrow]
  simp only [marks_eq]
  exact ⟨_, _, rfl⟩

theorem Clear.ends_type {rest : List Token} (clear : Clear shapeMarks rest) :
    ∀ token ∈ rest.head?, token.isOptionalMark = false ∧ token.reads "->" = false := by
  intro token at_head
  obtain ⟨others, rfl⟩ := List.head?_eq_some_iff.mp at_head
  simp [Token.isOptionalMark, clear.not_reads (by decide : "?" ∈ shapeMarks),
    clear.not_reads (by decide : "!" ∈ shapeMarks), clear.not_reads (by decide : "->" ∈ shapeMarks)]

theorem readShape_plain (endLine line : Nat) {parts : List String} {rest : List Token}
    (path : IsTypePath parts) (clear : Clear shapeMarks rest) :
    Takes (readShape endLine (inLine line (pathWords parts) rest)) (.plain (dotted parts))
      rest := by
  have head := readTypeHead_path endLine line path (clear.mono (by decide))
  exact readShape_head [] head (by simp) clear.ends_type

theorem readShape_optional (endLine line : Nat) {parts : List String} {rest : List Token}
    (path : IsTypePath parts) (clear : Clear shapeMarks rest) :
    Takes (readShape endLine (inLine line (pathWords parts ++ [.mark "?"]) rest))
      (.optional (dotted parts)) rest := by
  have front : Clear pathMarks (inLine line [.mark "?"] rest) := clear_word (by decide)
  rw [inLine_append]
  exact readShape_head _ (readTypeHead_path endLine line path front)
    (by simp [lineTokens, Token.isOptionalMark]) clear.ends_type

theorem readShape_array (endLine line : Nat) {parts : List String} {rest : List Token}
    (path : IsTypePath parts) (clear : Clear shapeMarks rest) :
    Takes (readShape endLine (inLine line (.mark "[" :: (pathWords parts ++ [.mark "]"])) rest))
      (.array (dotted parts)) rest := by
  have front : Clear shapeMarks (inLine line [.mark "]"] rest) := clear_word (by decide)
  obtain ⟨tail, shorter, item⟩ := readShape_plain endLine line path front
  have no_colon : accept? ":" (inLine line [.mark "]"] rest) = none := rfl
  have close : expect endLine "]" (inLine line [.mark "]"] rest) = .ok (.one () _ rest) := rfl
  have head : Takes (readTypeHead endLine
      (inLine line (.mark "[" :: (pathWords parts ++ [.mark "]"])) rest))
      (.array (.plain (dotted parts))) rest := by
    rw [inLine_cons, inLine_append, readTypeHead]
    simp only [Word.mark_reads, decide_true, if_true, item, bind, Except.bind, no_colon, close]
    exact ⟨_, _, rfl⟩
  exact readShape_head [] head (by simp) clear.ends_type

theorem readShape_canonical (endLine line : Nat) {shape : TypeShape} {rest : List Token}
    (canonical : shape.Canonical) (clear : Clear shapeMarks rest) :
    Takes (readShape endLine (inLine line shape.words rest)) shape rest := by
  cases canonical with
  | plain path =>
    rw [path.words_plain]
    exact readShape_plain endLine line path clear
  | optional path =>
    rw [path.words_optional]
    exact readShape_optional endLine line path clear
  | array path =>
    rw [path.words_array]
    exact readShape_array endLine line path clear

/-! ## Initial values -/

def openingWords : List String := modifierWords ++ ["struct", "enum", "let", "case"]

def boundaryWords : List String := openingWords ++ [closeBrace]

/-- What follows a declaration: nothing, or a line that begins with a modifier, a keyword or a
closing brace. -/
def Boundary (rest : List Token) : Prop :=
  ∀ token ∈ rest.head?, token.startsLine = true ∧ token.text ∈ boundaryWords

theorem Boundary.clear {rest : List Token} (boundary : Boundary rest) (texts : List String)
    (apart : ∀ text ∈ texts, text ∉ boundaryWords) : Clear texts rest :=
  fun token at_head member => apart token.text member (boundary token at_head).2

theorem valueLength_boundary {rest : List Token} (boundary : Boundary rest) :
    valueLength true 0 rest = 0 := by
  cases rest with
  | nil => rfl
  | cons token rest =>
    have starts : token.startsLine = true := (boundary token rfl).1
    have no_point : token.isMark "." = false := by
      have other : token.text ≠ "." := by
        intro same
        exact boundary.clear ["."] (by decide) token rfl (by simp [same])
      simp [Token.isMark, other]
    have ends : token.endsValue = true := by simp [Token.endsValue, starts, no_point]
    simp [valueLength, ends]

theorem length_lineTokens (line : Nat) (startsLine : Bool) (comments : List String)
    (words : List Word) : (lineTokens line startsLine comments words).length = words.length := by
  induction words generalizing startsLine comments with
  | nil => rfl
  | cons word words ih => rw [lineTokens, List.length_cons, ih, List.length_cons]

theorem readInitializer_words (endLine line : Nat) {words : List Word} {rest : List Token}
    (nonempty : words ≠ [])
    (length_eq : valueLength false 0 (inLine line words rest) = words.length) :
    Takes (readInitializer endLine (inLine line words rest))
      (classifyValue (lineTokens line false [] words)) rest := by
  obtain ⟨word, more, rfl⟩ := List.exists_cons_of_ne_nil nonempty
  have whole : (lineTokens line false [] more).length = more.length := length_lineTokens _ _ _ _
  rw [inLine_cons, List.length_cons, ← whole] at length_eq
  rw [inLine_cons, readInitializer.eq_def]
  simp only [length_eq]
  refine ⟨List.suffix_append (word.token line false [] :: lineTokens line false [] more) rest,
    by simp only [inLine, List.length_cons, List.length_append]; omega, ?_⟩
  simp only [inLine, List.take_left, List.drop_left, lineTokens]

theorem readInitializer_canonical (endLine line : Nat) {value : Initializer} {rest : List Token}
    (canonical : value.Canonical) (boundary : Boundary rest) :
    Takes (readInitializer endLine (inLine line value.words rest)) value rest := by
  have ends := valueLength_boundary boundary
  have single : ∀ word : Word, word.kind ≠ .mark →
      Takes (readInitializer endLine (inLine line [word] rest))
        (classifyValue [word.token line false []]) rest := by
    intro word no_mark
    apply readInitializer_words endLine line (List.cons_ne_nil word [])
    simp [valueLength, Token.isMarkIn, no_mark, ends]
  cases canonical with
  | @integer text whole =>
    have taken := single { kind := .number, text } (by simp)
    rwa [Word.token, classifyValue, if_pos whole] at taken
  | @boolean text truth =>
    have taken := single (.name text) (by simp)
    have known : (decide (text = "true") || decide (text = "false")) = true := by simpa using truth
    rwa [Word.token, Word.name, classifyValue, if_pos known] at taken
  | @member name word =>
    have taken : Takes (readInitializer endLine (inLine line [.mark ".", .name name] rest))
        ⟨.member, name, []⟩ rest := by
      apply readInitializer_words endLine line (List.cons_ne_nil _ _)
      simp [valueLength, Token.isMarkIn, Token.endsValue, openingMarks, closingMarks, openBrace,
        closeBrace, ends]
    exact taken
  | @string content plain => exact single { kind := .string, text := _, segments := _ } (by simp)

/-! ## Fields -/

theorem readTypeClause_canonical (endLine line : Nat) {shape : Option TypeShape}
    {rest : List Token} (typed : ∀ type ∈ shape, type.Canonical)
    (clear : Clear (":" :: shapeMarks) rest) :
    Passes (readTypeClause endLine (inLine line (shape.elim [] (.mark ":" :: ·.words)) rest)) shape
      rest := by
  cases shape with
  | none =>
    rw [Option.elim_none, inLine_nil, readTypeClause, clear.accept? (by decide)]
    exact ⟨_, rfl⟩
  | some type =>
    obtain ⟨tail, shorter, taken⟩ :=
      readShape_canonical endLine line (typed type rfl) (clear.mono (by decide))
    rw [Option.elim_some, inLine_cons, readTypeClause, accept?_mark]
    simp only [Reading.one, taken, bind, Except.bind]
    exact ⟨_, rfl⟩

theorem readAssignment_none (endLine : Nat) {rest : List Token} (clear : Clear ["="] rest) :
    readAssignment endLine rest = .ok (.stay rest none) := by
  rw [readAssignment, clear.accept? (by decide)]

theorem readAssignment_canonical (endLine line : Nat) {value : Option Initializer}
    {rest : List Token} (valued : ∀ initial ∈ value, initial.Canonical) (boundary : Boundary rest) :
    Passes (readAssignment endLine (inLine line (value.elim [] (.mark "=" :: ·.words)) rest)) value
      rest := by
  cases value with
  | none =>
    rw [Option.elim_none, inLine_nil, readAssignment_none endLine (boundary.clear _ (by decide))]
    exact ⟨_, rfl⟩
  | some initial =>
    obtain ⟨tail, shorter, taken⟩ :=
      readInitializer_canonical endLine line (valued initial rfl) boundary
    rw [Option.elim_some, inLine_cons, readAssignment, accept?_mark]
    simp only [Reading.one, taken, bind, Except.bind]
    exact ⟨_, rfl⟩

theorem skipAccessors_none (endLine : Nat) (hasValue : Bool) {rest : List Token}
    (clear : Clear [openBrace] rest) :
    skipAccessors endLine hasValue rest = .ok (.stay rest false) := by
  rw [skipAccessors, clear.isAt (by decide), if_neg Bool.false_ne_true]

theorem readBinding_canonical (endLine line : Nat) (modifiers : List String) (comment : String)
    {name : String} {shape : Option TypeShape} {value : Option Initializer} {rest : List Token}
    (typed : ∀ type ∈ shape, type.Canonical) (valued : ∀ initial ∈ value, initial.Canonical)
    (boundary : Boundary rest) :
    Takes (readBinding endLine modifiers comment (inLine line (.name name ::
        (shape.elim [] (.mark ":" :: ·.words) ++ value.elim [] (.mark "=" :: ·.words))) rest))
      [.node { kind := .field, name, modifiers, comment, shape, initializer := value,
               line := some line } []] rest := by
  have behind_shape : Clear (":" :: shapeMarks)
      (inLine line (value.elim [] (.mark "=" :: ·.words)) rest) := by
    cases value with
    | none => exact boundary.clear _ (by decide)
    | some initial => exact clear_word (by decide)
  obtain ⟨shape_tail, shape_eq⟩ := readTypeClause_canonical endLine line typed behind_shape
  obtain ⟨value_tail, value_eq⟩ := readAssignment_canonical endLine line valued boundary
  have no_block := skipAccessors_none endLine value.isSome (boundary.clear [openBrace] (by decide))
  rw [inLine_cons, inLine_append, readBinding, readBindingName, acceptName?_name]
  simp only [Reading.one, Reading.map, bind, Except.bind]
  simp only [shape_eq, value_eq, no_block]
  exact ⟨_, _, rfl⟩

theorem readBindings_canonical (endLine line : Nat) (modifiers : List String) (comment : String)
    {name : String} {shape : Option TypeShape} {value : Option Initializer} {rest : List Token}
    (typed : ∀ type ∈ shape, type.Canonical) (valued : ∀ initial ∈ value, initial.Canonical)
    (boundary : Boundary rest) :
    Takes (readBindings endLine modifiers comment (inLine line (.name name ::
        (shape.elim [] (.mark ":" :: ·.words) ++ value.elim [] (.mark "=" :: ·.words))) rest))
      [.node { kind := .field, name, modifiers, comment, shape, initializer := value,
               line := some line } []] rest := by
  obtain ⟨tail, shorter, taken⟩ :=
    readBinding_canonical endLine line modifiers comment typed valued boundary
  have no_comma := (boundary.clear [","] (by decide)).accept? (by decide : "," ∈ [","])
  rw [readBindings, taken]
  simp only [bind, Except.bind, no_comma]
  exact ⟨_, _, rfl⟩

/-! ## Cases -/

theorem acceptLabel?_name_mark {name mark : String} {line : Nat} {rest : List Token}
    (other : mark ≠ ":") :
    acceptLabel? ((Word.name name).token line false [] :: (Word.mark mark).token line false [] ::
      rest) = none := by
  have no_colon : accept? ":" ((Word.mark mark).token line false [] :: rest) = none := by
    rw [accept?, Word.mark_reads, if_neg (by simp [other])]
  rw [acceptLabel?, acceptName?_name]
  simp only [bind, Option.bind, Reading.one, no_colon]
  rfl

/-- A type in front of a comma or a closing parenthesis has no label. -/
theorem acceptLabel?_shape (line : Nat) {shape : TypeShape} {close : String} {rest : List Token}
    (canonical : shape.Canonical) (closing : close ≠ ":") :
    acceptLabel? (inLine line shape.words (inLine line [.mark close] rest)) = none := by
  have path : ∀ {parts : List String} {mark : String} (more : List Token), parts ≠ [] →
      mark ≠ ":" → acceptLabel? (inLine line (pathWords parts) (inLine line [.mark mark] more)) =
        none := by
    intro parts mark more nonempty other
    obtain ⟨part, others, rfl⟩ := List.exists_cons_of_ne_nil nonempty
    rw [pathWords_cons]
    cases others with
    | nil => exact acceptLabel?_name_mark other
    | cons next others => exact acceptLabel?_name_mark (by decide)
  cases canonical with
  | plain names =>
    rw [names.words_plain]
    exact path _ names.nonempty closing
  | optional names =>
    rw [names.words_optional, inLine_append]
    exact path _ names.nonempty (by decide)
  | array names =>
    rw [names.words_array]
    rfl

theorem readLabel_canonical (line : Nat) {parameter : CaseParameter} {close : String}
    (rest : List Token) (canonical : parameter.Canonical) (closing : close ≠ ":") :
    let label := readLabel (inLine line parameter.words (inLine line [.mark close] rest))
    label.value = parameter.label ∧
      label.rest = inLine line parameter.shape.words (inLine line [.mark close] rest) := by
  obtain ⟨label, shape⟩ := parameter
  cases label with
  | none =>
    change (readLabel (inLine line shape.words (inLine line [.mark close] rest))).value = none ∧
      (readLabel (inLine line shape.words (inLine line [.mark close] rest))).rest = _
    rw [readLabel, acceptLabel?_shape line canonical.shape closing]
    exact ⟨rfl, rfl⟩
  | some label =>
    have named : label ≠ "_" := (canonical.label label rfl).2
    exact ⟨if_neg named, rfl⟩

/-- A type does not begin with a closing parenthesis. -/
theorem accept?_shape (line : Nat) {shape : TypeShape} {rest : List Token}
    (canonical : shape.Canonical) : accept? ")" (inLine line shape.words rest) = none := by
  have path : ∀ {parts : List String} (words : List Word), IsTypePath parts →
      accept? ")" (inLine line (pathWords parts ++ words) rest) = none := by
    intro parts words names
    obtain ⟨part, others, rfl⟩ := List.exists_cons_of_ne_nil names.nonempty
    have other := ne_of_isWord (names.words part List.mem_cons_self) ")" (by decide)
    rw [pathWords_cons, List.cons_append, inLine_cons, accept?, Word.name_reads,
      if_neg (by simp [other])]
  cases canonical with
  | plain names =>
    rw [names.words_plain, ← List.append_nil (pathWords _)]
    exact path [] names
  | optional names =>
    rw [names.words_optional]
    exact path _ names
  | array names =>
    rw [names.words_array]
    rfl

theorem accept?_parameter (line : Nat) {parameter : CaseParameter} {rest : List Token}
    (canonical : parameter.Canonical) : accept? ")" (inLine line parameter.words rest) = none := by
  obtain ⟨label, shape⟩ := parameter
  cases label with
  | none => exact accept?_shape line canonical.shape
  | some label =>
    have other := ne_of_isWord (canonical.label label rfl).1 ")" (by decide)
    change accept? ")" (inLine line (.name label :: .mark ":" :: shape.words) rest) = none
    rw [inLine_cons, accept?, Word.name_reads, if_neg (by simp [other])]

theorem listed_cons_cons (first second : List Word) (items : List (List Word)) :
    listed (first :: second :: items) = first ++ [.mark ","] ++ listed (second :: items) := by
  simp [listed]

/-- A parameter is read up to the comma or parenthesis behind it. -/
theorem readShape_parameter (endLine line : Nat) {parameter : CaseParameter} {close : String}
    (rest : List Token) (canonical : parameter.Canonical)
    (closing : close ∉ ":" :: shapeMarks) :
    Takes (readShape endLine
        (readLabel (inLine line parameter.words (inLine line [.mark close] rest))).rest)
      parameter.shape (inLine line [.mark close] rest) := by
  have no_label : close ≠ ":" := List.ne_of_not_mem_cons closing
  have clear : Clear shapeMarks (inLine line [.mark close] rest) :=
    clear_word (List.not_mem_of_not_mem_cons closing)
  rw [(readLabel_canonical line rest canonical no_label).2]
  exact readShape_canonical endLine line canonical.shape clear

theorem readParameters_canonical (endLine line : Nat) {parameters : List CaseParameter}
    (rest : List Token) (nonempty : parameters ≠ [])
    (payload : ∀ parameter ∈ parameters, parameter.Canonical) :
    Takes (readParameters endLine
        (inLine line (listed (parameters.map (·.words))) (inLine line [.mark ")"] rest)))
      parameters rest := by
  induction parameters with
  | nil => exact absurd rfl nonempty
  | cons parameter parameters ih =>
    have canonical := payload parameter List.mem_cons_self
    cases parameters with
    | nil =>
      have no_value : Clear ["="] (inLine line [.mark ")"] rest) := clear_word (by decide)
      have label := (readLabel_canonical line rest canonical (by decide : ")" ≠ ":")).1
      obtain ⟨tail, shorter, shape⟩ := readShape_parameter endLine line rest canonical
        (by decide : ")" ∉ ":" :: shapeMarks)
      rw [List.map_singleton, listed, List.intercalate_singleton, readParameters,
        accept?_parameter line canonical]
      simp only [bind, Except.bind, shape, readAssignment_none endLine no_value, Advance.stay,
        label]
      exact ⟨_, _, rfl⟩
    | cons next parameters =>
      have later := ih (List.cons_ne_nil _ _) fun other member =>
        payload other (List.mem_cons_of_mem _ member)
      rw [List.map_cons] at later
      obtain ⟨further_tail, further_shorter, further⟩ := later
      rw [List.map_cons, List.map_cons, listed_cons_cons, inLine_append, inLine_append]
      generalize inLine line (listed (next.words :: parameters.map (·.words)))
        (inLine line [.mark ")"] rest) = behind at further_tail further_shorter further ⊢
      have no_value : Clear ["="] (inLine line [.mark ","] behind) := clear_word (by decide)
      have label := (readLabel_canonical line behind canonical (by decide : "," ≠ ":")).1
      obtain ⟨tail, shorter, shape⟩ := readShape_parameter endLine line behind canonical
        (by decide : "," ∉ ":" :: shapeMarks)
      rw [readParameters, accept?_parameter line canonical]
      simp only [bind, Except.bind, shape, readAssignment_none endLine no_value, Advance.stay,
        label]
      have comma : accept? "," (inLine line [.mark ","] behind) = some (.one () _ behind) := rfl
      simp only [comma, Reading.one, further]
      exact ⟨_, _, rfl⟩

theorem readCaseParameters_canonical (endLine line : Nat) {parameters : List CaseParameter}
    {rest : List Token} (payload : ∀ parameter ∈ parameters, parameter.Canonical)
    (clear : Clear ["("] rest) :
    Passes (readCaseParameters endLine (inLine line (payloadWords parameters) rest)) parameters
      rest := by
  by_cases none : parameters = []
  · rw [payloadWords, if_pos none, inLine_nil, readCaseParameters, clear.accept? (by decide), none]
    exact ⟨_, rfl⟩
  · obtain ⟨tail, shorter, taken⟩ := readParameters_canonical endLine line rest none payload
    rw [payloadWords, if_neg none, inLine_cons, inLine_append, readCaseParameters, accept?_mark]
    simp only [Reading.one, taken, bind, Except.bind]
    exact ⟨_, rfl⟩

theorem readCases_canonical (endLine line : Nat) (comment : String) {name : String}
    {parameters : List CaseParameter} {rest : List Token}
    (payload : ∀ parameter ∈ parameters, parameter.Canonical) (boundary : Boundary rest) :
    Takes (readCases endLine comment
        (inLine line (.name name :: payloadWords parameters) rest))
      [.node { kind := .case, name, comment, parameters, line := some line } []] rest := by
  obtain ⟨tail, taken⟩ :=
    readCaseParameters_canonical endLine line payload (boundary.clear ["("] (by decide))
  have no_value := readAssignment_none endLine (boundary.clear ["="] (by decide))
  have no_comma := (boundary.clear [","] (by decide)).accept? (by decide : "," ∈ [","])
  rw [inLine_cons, readCases, expectName, acceptName?_name]
  simp only [Reading.one, bind, Except.bind, taken, no_value, Advance.stay, no_comma]
  exact ⟨_, _, rfl⟩

end ApiHandbook.Source
