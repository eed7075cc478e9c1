import ApiHandbook.Proofs.Source.PrintedReading
import ApiHandbook.Proofs.Source.TypeForms

/-!
# Reading type expressions

A type expression in front of a token that cannot belong to it is read to its end, and its shape is
the one it has as an expression.
-/
namespace ApiHandbook.Source

/-! ## Groups of words -/

/-- The group in which `depth` further ones are open ends in front of `after`. -/
def Closes (opening closing : String) (depth : Nat) (tokens after : List Token) : Prop :=
  (closeGroup opening closing depth tokens).map Reading.rest = some after

section
variable {opening closing : String} {depth : Nat} {token : Token} {rest after : List Token}

theorem closes_opening (opens : token.isMark opening = true)
    (closes : Closes opening closing (depth + 1) rest after) :
    Closes opening closing depth (token :: rest) after := by
  rw [Closes, closeGroup.eq_def]
  simp only [opens, if_true, Option.map_map]
  exact closes

theorem closes_closing (other : token.isMark opening = false) (ends : token.isMark closing = true)
    (closes : Closes opening closing depth rest after) :
    Closes opening closing (depth + 1) (token :: rest) after := by
  rw [Closes, closeGroup.eq_def]
  simp only [other, ends, Bool.false_eq_true, if_false, if_true, Option.map_map]
  exact closes

theorem closes_last (other : token.isMark opening = false) (ends : token.isMark closing = true) :
    Closes opening closing 0 (token :: rest) rest := by
  rw [Closes, closeGroup.eq_def]
  simp only [other, ends, Bool.false_eq_true, if_false, if_true]
  rfl

theorem closes_other (no_opening : token.isMark opening = false)
    (no_closing : token.isMark closing = false)
    (closes : Closes opening closing depth rest after) :
    Closes opening closing depth (token :: rest) after := by
  rw [Closes, closeGroup.eq_def]
  simp only [no_opening, no_closing, Bool.false_eq_true, if_false, Option.map_map]
  exact closes

end

@[simp] theorem Word.mark_isMark (text other : String) (line : Nat) (startsLine : Bool)
    (comments : List String) :
    ((Word.mark text).token line startsLine comments).isMark other = decide (text = other) := rfl

theorem Word.isMark_eq_false {word : Word} {texts : List String}
    (plain : word.kind = .mark → word.text ∉ texts) {text : String} (listed : text ∈ texts)
    (line : Nat) (startsLine : Bool) (comments : List String) :
    (word.token line startsLine comments).isMark text = false := by
  rw [Token.isMark, Bool.and_eq_false_imp]
  intro kind
  rw [decide_eq_false_iff_not]
  rintro rfl
  exact plain (of_decide_eq_true kind) listed

theorem Balanced.closes {opening closing : String} (different : closing ≠ opening)
    {inner : List Word} (balanced : Balanced opening closing inner) {depth : Nat}
    {rest after : List Token} (line : Nat) (closes : Closes opening closing depth rest after) :
    Closes opening closing depth (inLine line inner rest) after := by
  induction balanced generalizing depth rest with
  | nil => exact closes
  | word word plain _ ih =>
    exact closes_other (Word.isMark_eq_false plain (by simp) line false [])
      (Word.isMark_eq_false plain (by simp) line false []) (ih closes)
  | group _ _ nested further =>
    rw [inLine_append, inLine_cons, inLine_cons]
    apply closes_opening (by simp)
    apply nested
    exact closes_closing (by simp [different]) (by simp) (further closes)

theorem skipGroup_balanced {opening closing : String} (different : closing ≠ opening)
    {inner : List Word} (balanced : Balanced opening closing inner) (endLine line : Nat)
    (startsLine : Bool) (comments : List String) (rest : List Token) :
    Takes (skipGroup endLine opening closing ((Word.mark opening).token line startsLine comments ::
      inLine line (inner ++ [.mark closing]) rest)) () rest := by
  have ends : Closes opening closing 0 (inLine line [.mark closing] rest) rest :=
    closes_last (by simp [different]) (by simp)
  obtain ⟨group, found, rest_eq⟩ := Option.map_eq_some_iff.mp (balanced.closes different line ends)
  rw [inLine_append, skipGroup, expect, accept?_mark]
  simp only [bind, Except.bind, Reading.one, found]
  exact takes_ok rfl rest_eq

/-! ## Reading a type to its end -/

/-- Whether a path goes on: with arguments on the same line, or with a point and a name. -/
def continuesPath : List Token → Bool
  | [] => false
  | token :: rest =>
    token.reads "<" && !token.startsLine || token.reads "." && rest.head?.any (·.kind = .name)

/-- Whether the next token can belong to the type in front of it. -/
def continuesType (tokens : List Token) : Bool :=
  continuesPath tokens || tokens.head?.any fun token => token.isOptionalMark || token.reads "->"

section
variable {rest : List Token}

theorem acceptPointName?_none (ends : continuesPath rest = false) :
    acceptPointName? rest = none := by
  cases rest with
  | nil => rfl
  | cons token rest =>
    simp only [continuesPath, Bool.or_eq_false_iff, Bool.and_eq_false_imp] at ends
    by_cases point : token.reads "." = true
    · have no_name : acceptName? rest = none := by
        cases rest with
        | nil => rfl
        | cons next rest => simpa [acceptName?] using ends.2 point
      simp [acceptPointName?, accept?, point, Reading.one, no_name]
    · simp [acceptPointName?, accept?, point]

theorem skipArguments_words (endLine line : Nat)
    (arguments : Option {inner : List Word // Balanced "<" ">" inner})
    (ends : (rest.head?.any fun token => token.reads "<" && !token.startsLine) = false) :
    Passes (skipArguments endLine (inLine line (argumentWords arguments) rest)) arguments.isSome
      rest := by
  cases arguments with
  | none =>
    rw [argumentWords, inLine_nil, skipArguments, ends, if_neg Bool.false_ne_true]
    exact ⟨_, rfl⟩
  | some inner =>
    obtain ⟨tail, shorter, group⟩ :=
      skipGroup_balanced (by decide) inner.property endLine line false [] rest
    rw [argumentWords, inLine_cons, skipArguments, if_pos (by simp)]
    simp only [group, bind, Except.bind]
    exact ⟨_, rfl⟩

theorem readPath_parts (endLine line : Nat) (ends : continuesPath rest = false)
    (arguments : Option {inner : List Word // Balanced "<" ">" inner}) (others : List PathPart) :
    Passes (readPath endLine (inLine line
        (argumentWords arguments ++ others.flatMap fun part => .mark "." :: part.words) rest))
      (arguments.isSome || others.any (·.arguments.isSome), others.map (·.name)) rest := by
  induction others generalizing arguments with
  | nil =>
    have no_angle : (rest.head?.any fun token => token.reads "<" && !token.startsLine) = false := by
      cases rest with
      | nil => rfl
      | cons token rest => exact (Bool.or_eq_false_iff.mp ends).1
    obtain ⟨tail, passed⟩ := skipArguments_words endLine line arguments no_angle
    rw [List.flatMap_nil, List.append_nil, readPath, passed]
    simp only [bind, Except.bind, acceptPointName?_none ends]
    simp only [List.any_nil, Bool.or_false, List.map_nil]
    exact ⟨_, rfl⟩
  | cons part others ih =>
    obtain ⟨further_tail, further⟩ := ih part.arguments
    rw [List.flatMap_cons, inLine_append, List.cons_append, inLine_cons, PathPart.words,
      List.cons_append, inLine_cons]
    generalize inLine line (argumentWords part.arguments ++
      others.flatMap fun part => .mark "." :: part.words) rest = behind at further_tail further ⊢
    have point : acceptPointName? ((Word.mark ".").token line false [] ::
        (Word.name part.name).token line false [] :: behind) =
          some ((Reading.one part.name _ behind).behind (List.suffix_cons _ _)) := rfl
    have no_angle : (((Word.mark ".").token line false [] ::
        (Word.name part.name).token line false [] :: behind).head?.any
          fun token => token.reads "<" && !token.startsLine) = false := by simp
    obtain ⟨tail, passed⟩ := skipArguments_words endLine line arguments no_angle
    rw [readPath, passed]
    simp only [bind, Except.bind, point, Reading.behind, Reading.one, further]
    exact ⟨_, rfl⟩

theorem ends_type (ends : continuesType rest = false) :
    ∀ token ∈ rest.head?, token.isOptionalMark = false ∧ token.reads "->" = false := by
  intro token at_head
  rw [continuesType, Option.mem_def.mp at_head, Option.any_some] at ends
  exact Bool.or_eq_false_iff.mp (Bool.or_eq_false_iff.mp ends).2

theorem Token.not_isOptionalMark {token : Token} (arrow : token.reads "->" = true) :
    token.isOptionalMark = false := by
  simp only [reads, Bool.and_eq_true, decide_eq_true_eq] at arrow
  simp [isOptionalMark, reads, arrow.2]

theorem readShape_function {endLine : Nat} {tokens behind : List Token} {head : TypeHead}
    {result : TypeShape} {arrow : Token} (marks : List Token) (reads : arrow.reads "->" = true)
    (taken : Takes (readTypeHead endLine tokens) head (marks ++ arrow :: behind))
    (optional : ∀ mark ∈ marks, mark.isOptionalMark = true)
    (further : Takes (readShape endLine behind) result rest) :
    Takes (readShape endLine tokens) (.unsupported (textBefore rest tokens)) rest := by
  obtain ⟨tail, shorter, head_eq⟩ := taken
  obtain ⟨result_tail, result_shorter, result_eq⟩ := further
  have no_mark : ∀ token ∈ (arrow :: behind).head?, token.isOptionalMark = false := by
    rintro token ⟨⟩
    exact Token.not_isOptionalMark reads
  obtain ⟨marks_tail, marks_eq⟩ := passWhile_append optional no_mark
  have accepted : ∃ tail shorter,
      accept? "->" (passWhile Token.isOptionalMark (marks ++ arrow :: behind)).rest =
        some ⟨(), behind, tail, shorter⟩ := by
    rw [marks_eq, accept?, if_pos reads]
    exact ⟨_, _, rfl⟩
  obtain ⟨arrow_tail, arrow_shorter, arrow_eq⟩ := accepted
  rw [readShape, head_eq]
  simp only [bind, Except.bind]
  rw [arrow_eq]
  simp only [result_eq]
  exact ⟨_, _, rfl⟩

end

theorem joinTexts_lineTokens (words : List Word) (line : Nat) (startsLine : Bool)
    (comments : List String) :
    joinTexts (lineTokens line startsLine comments words) = wordsText words := by
  induction words generalizing startsLine comments with
  | nil => rfl
  | cons word words ih =>
    cases words with
    | nil => rfl
    | cons next words =>
      have later := ih false []
      simp only [wordsText, lineTokens, joinTexts] at later ⊢
      rw [later]
      rfl

/-- The text of a type that is read from a line. -/
theorem textBefore_words (words : List Word) (line : Nat) (startsLine : Bool)
    (comments : List String) (rest : List Token) :
    textBefore rest (lineTokens line startsLine comments words ++ rest) = wordsText words := by
  rw [textBefore, List.length_append, Nat.add_sub_cancel, List.take_left, joinTexts_lineTokens]

theorem HeadForm.words_ne_nil (head : HeadForm) : head.words ≠ [] := by
  cases head with
  | path names => simp [words, TypePath.words, PathPart.words]
  | array | dictionary | group | prefixed => exact List.cons_ne_nil _ _

theorem OptionalMark.isOptionalMark {marks : List OptionalMark} {line : Nat} :
    ∀ token ∈ lineTokens line false [] (marks.map word), token.isOptionalMark = true := by
  induction marks with
  | nil => simp [lineTokens]
  | cons mark marks ih =>
    rw [List.map_cons, lineTokens, List.forall_mem_cons]
    exact ⟨by cases mark <;> rfl, ih⟩

theorem OptionalMark.not_continuesPath (marks : List OptionalMark) (line : Nat) {rest : List Token}
    (ends : continuesPath rest = false) :
    continuesPath (lineTokens line false [] (marks.map word) ++ rest) = false := by
  cases marks with
  | nil => exact ends
  | cons mark marks => cases mark <;> rfl

section
variable {endLine line : Nat} {startsLine : Bool} {comments : List String} {rest : List Token}

theorem readTypeHead_typePath (names : TypePath) (ends : continuesPath rest = false) :
    Takes (readTypeHead endLine (lineTokens line startsLine comments names.words ++ rest))
      (names.name?.elim .other .path) rest := by
  have word := ne_of_isWord names.first.word
  have plain : existentialWords.contains names.first.name = false := by simpa using names.plain
  obtain ⟨tail, path⟩ := readPath_parts endLine line ends names.first.arguments names.others
  change Takes (readTypeHead endLine ((Word.name names.first.name).token line startsLine comments ::
    inLine line (argumentWords names.first.arguments ++
      names.others.flatMap fun part => .mark "." :: part.words) rest)) _ rest
  rw [readTypeHead]
  simp only [Word.name_reads, word "[" (by decide), word "(" (by decide), Word.token_kind,
    Word.token_text, Word.name_kind, Word.name_text, plain, path, bind, Except.bind, decide_false,
    Bool.false_eq_true, if_false, ne_eq, not_true]
  refine takes_ok ?_ rfl
  rw [TypePath.name?]
  simp only [Advance.after, Advance.map]
  split <;> rfl

theorem readTypeHead_array {words : List Word} {item : TypeShape}
    (taken : Takes (readShape endLine (inLine line words (inLine line [.mark "]"] rest))) item
      (inLine line [.mark "]"] rest)) :
    Takes (readTypeHead endLine ((Word.mark "[").token line startsLine comments ::
      inLine line (words ++ [.mark "]"]) rest)) (.array item) rest := by
  obtain ⟨tail, shorter, item_eq⟩ := taken
  rw [inLine_append, readTypeHead, if_pos (by simp)]
  simp only [item_eq, bind, Except.bind]
  exact ⟨_, _, rfl⟩

theorem readTypeHead_dictionary {keyWords valueWords : List Word} {key value : TypeShape}
    (key_taken : Takes (readShape endLine (inLine line keyWords
        (inLine line (.mark ":" :: (valueWords ++ [.mark "]"])) rest))) key
      (inLine line (.mark ":" :: (valueWords ++ [.mark "]"])) rest))
    (value_taken : Takes (readShape endLine (inLine line valueWords (inLine line [.mark "]"] rest)))
      value (inLine line [.mark "]"] rest)) :
    Takes (readTypeHead endLine ((Word.mark "[").token line startsLine comments ::
      inLine line (keyWords ++ .mark ":" :: (valueWords ++ [.mark "]"])) rest)) .other rest := by
  rw [inLine_cons, inLine_append] at key_taken
  obtain ⟨key_tail, key_shorter, key_eq⟩ := key_taken
  obtain ⟨value_tail, value_shorter, value_eq⟩ := value_taken
  rw [inLine_append, inLine_cons, inLine_append, readTypeHead, if_pos (by simp)]
  simp only [key_eq, accept?_mark, Reading.one, value_eq, bind, Except.bind]
  exact ⟨_, _, rfl⟩

theorem readTypeHead_group {inner : List Word} (balanced : Balanced "(" ")" inner) :
    Takes (readTypeHead endLine ((Word.mark "(").token line startsLine comments ::
      inLine line (inner ++ [.mark ")"]) rest)) .other rest := by
  obtain ⟨tail, shorter, group⟩ :=
    skipGroup_balanced (by decide) balanced endLine line startsLine comments rest
  rw [readTypeHead, if_neg (by simp), if_pos (by simp)]
  simp only [skipParentheses, group, bind, Except.bind]
  exact ⟨_, _, rfl⟩

theorem readTypeHead_prefixed {word : String} {tokens : List Token} {head : TypeHead}
    (known : word ∈ existentialWords) (taken : Takes (readTypeHead endLine tokens) head rest) :
    Takes (readTypeHead endLine ((Word.name word).token line startsLine comments :: tokens)) .other
      rest := by
  obtain ⟨tail, shorter, head_eq⟩ := taken
  have listed : existentialWords.contains word = true := by simpa using known
  have apart : word ≠ "[" ∧ word ≠ "(" := by
    have all : ∀ other ∈ existentialWords, other ≠ "[" ∧ other ≠ "(" := by decide
    exact all word known
  rw [readTypeHead]
  simp only [Word.name_reads, apart, Word.token_kind, Word.token_text, Word.name_kind,
    Word.name_text, listed, head_eq, bind, Except.bind, decide_false, Bool.false_eq_true, if_false,
    if_true, ne_eq, not_true]
  exact ⟨_, _, rfl⟩

end

mutual

theorem HeadForm.read (endLine line : Nat) (startsLine : Bool) (comments : List String) :
    (head : HeadForm) → ∀ {rest : List Token}, continuesPath rest = false →
      Takes (readTypeHead endLine (lineTokens line startsLine comments head.words ++ rest))
        head.head rest
  | .path names, _, ends => readTypeHead_typePath names ends
  | .array item, _, _ => readTypeHead_array (item.read endLine line false [] rfl)
  | .dictionary key value, _, _ =>
    readTypeHead_dictionary (key.read endLine line false [] rfl)
      (value.read endLine line false [] rfl)
  | .group _ balanced, _, _ => readTypeHead_group balanced
  | .prefixed _ known head, _, ends =>
    readTypeHead_prefixed known (head.read endLine line false [] ends)

theorem TypeForm.read (endLine line : Nat) (startsLine : Bool) (comments : List String) :
    (form : TypeForm) → ∀ {rest : List Token}, continuesType rest = false →
      Takes (readShape endLine (lineTokens line startsLine comments form.words ++ rest))
        form.shape rest
  | .value head marks, rest, ends => by
    have path_ends : continuesPath rest = false := (Bool.or_eq_false_iff.mp ends).1
    have taken := head.read endLine line startsLine comments
      (OptionalMark.not_continuesPath marks line path_ends)
    rw [← List.append_assoc, ← lineTokens_append _ _ _ head.words_ne_nil] at taken
    have whole := readShape_head (lineTokens line false [] (marks.map OptionalMark.word)) taken
      OptionalMark.isOptionalMark (ends_type ends)
    rw [textBefore_words, length_lineTokens, List.length_map] at whole
    exact whole
  | .function head marks result, rest, ends => by
    have further := result.read endLine line false [] ends
    have path_ends : continuesPath ((Word.mark "->").token line false [] ::
        (lineTokens line false [] result.words ++ rest)) = false := rfl
    have taken := head.read endLine line startsLine comments
      (OptionalMark.not_continuesPath marks line path_ends)
    have whole := readShape_function _ rfl taken OptionalMark.isOptionalMark further
    have tokens_eq : lineTokens line startsLine comments head.words ++
        (lineTokens line false [] (marks.map OptionalMark.word) ++
          (Word.mark "->").token line false [] ::
            (lineTokens line false [] result.words ++ rest)) =
        lineTokens line startsLine comments (TypeForm.function head marks result).words ++
          rest := by
      change _ = lineTokens line startsLine comments (head.words ++ (marks.map OptionalMark.word ++
        .mark "->" :: result.words)) ++ rest
      rw [lineTokens_append _ _ _ head.words_ne_nil, List.append_assoc]
      exact congrArg _ (inLine_append line (marks.map OptionalMark.word)
        (.mark "->" :: result.words) rest).symm
    rw [tokens_eq, textBefore_words] at whole
    exact whole

end

/-! ## What is documented -/

/-- A shape that takes its name from a part of the type: the part is just a path. -/
theorem TypeExpr.path_of_documented {inner : TypeExpr} {name text : String}
    {documented : String → TypeShape} (kept : ∀ name, (documented name).name = some name)
    (found : (inner.name?.elim (.unsupported text) documented).name = some name) :
    ∃ names : TypePath, inner = .path names ∧ names.name? = some name := by
  cases named : inner.name? with
  | none =>
    rw [named] at found
    cases found
  | some given =>
    rw [named, Option.elim_some, kept, Option.some.injEq] at found
    exact exists_path (found ▸ named)

theorem TypeExpr.shape_name_iff (type : TypeExpr) (name : String) :
    type.shape.name = some name ↔ ∃ names : TypePath, names.name? = some name ∧
      (type = .path names ∨ (∃ mark, type = .optional (.path names) mark) ∨
        type = .array (.path names)) := by
  constructor
  · intro found
    cases type with
    | path names =>
      obtain ⟨_, ⟨⟩, named⟩ := path_of_documented (fun _ => rfl)
        (show ((path names).name?.elim _ TypeShape.plain).name = some name from found)
      exact ⟨names, named, .inl rfl⟩
    | optional inner mark =>
      obtain ⟨names, rfl, named⟩ := path_of_documented (fun _ => rfl) found
      exact ⟨names, named, .inr (.inl ⟨mark, rfl⟩)⟩
    | array item =>
      obtain ⟨names, rfl, named⟩ := path_of_documented (fun _ => rfl) found
      exact ⟨names, named, .inr (.inr rfl)⟩
    | dictionary | group | prefixed | function => cases found
  · rintro ⟨names, named, rfl | ⟨mark, rfl⟩ | rfl⟩
    · simp [shape, named, TypeShape.plain]
    · simp [shape, name?, named, TypeShape.optional]
    · simp [shape, name?, named, TypeShape.array]

/-- A type on one line is read to its end and no further, and has its own shape. A name is given
to a path, a path with one optional mark and an array of a path, and to no other type. -/
theorem types_read_exactly (type : TypeExpr) (endLine line : Nat) (startsLine : Bool)
    (comments : List String) {rest : List Token} (ends : continuesType rest = false) :
    (∃ reading,
      readShape endLine (lineTokens line startsLine comments type.words ++ rest) = .ok reading ∧
      reading.rest = rest ∧ reading.value = type.shape) ∧
    ∀ name, type.shape.name = some name ↔ ∃ names : TypePath, names.name? = some name ∧
      (type = .path names ∨ (∃ mark, type = .optional (.path names) mark) ∨
        type = .array (.path names)) := by
  constructor
  · have taken := type.form.read endLine line startsLine comments ends
    rw [type.words_form, type.shape_form] at taken
    obtain ⟨tail, shorter, read⟩ := taken
    exact ⟨_, read, rfl, rfl⟩
  · exact type.shape_name_iff

def orderLine : TypePath where
  first := { name := "Order", word := by decide +kernel }
  others := [{ name := "Line", word := by decide +kernel }]
  plain := by decide

/-- A path with arguments: `Page<Order, [Line]>`. -/
def pageOfOrders : TypePath where
  first :=
    { name := "Page"
      word := by decide +kernel
      arguments := some
        ⟨[.name "Order", .mark ",", .mark "[", .name "Line", .mark "]"],
          .word _ (by decide) (.word _ (by decide) (.word _ (by decide) (.word _ (by decide)
            (.word _ (by decide) .nil))))⟩ }
  others := []
  plain := by decide

/-- A function from a dictionary: `[some Page<Order, [Line]>: ((Int))?] -> Order.Line!`. -/
def lineLookup : TypeExpr :=
  .function
    (.dictionary (.prefixed "some" (by decide) (.path pageOfOrders))
      (.optional (.group _ (.group (.word (.name "Int") (by decide) .nil) .nil)) .question))
    (.optional (.path orderLine) .exclamation)

theorem order_lines_and_lineLookup_read :
    (∃ reading, readShape 1 (lineTokens 1 false [] (TypeExpr.array (.path orderLine)).words ++
        [(Word.mark "=").token 1 false []]) = .ok reading ∧
      reading.rest = [(Word.mark "=").token 1 false []] ∧
      reading.value = .array "Order.Line") ∧
    ∃ reading, readShape 1 (lineTokens 1 true ["The rows."] lineLookup.words ++
        [(Word.name "var").token 2 true []]) = .ok reading ∧
      reading.rest = [(Word.name "var").token 2 true []] ∧
      reading.value = .unsupported "[somePage<Order, [Line]>: ((Int))?]->Order.Line!" := by
  constructor
  · exact (types_read_exactly _ 1 1 false [] rfl).1
  · have shape_eq : lineLookup.shape =
        .unsupported "[somePage<Order, [Line]>: ((Int))?]->Order.Line!" := by decide +kernel
    rw [← shape_eq]
    exact (types_read_exactly lineLookup 1 1 true ["The rows."] rfl).1

end ApiHandbook.Source
