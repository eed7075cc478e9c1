import ApiHandbook.Proofs.Except
import ApiHandbook.Proofs.Source.TypeReading

/-!
# Types in front of further tokens

What a type is read from does not depend on what stands behind it: a type that is read from some
tokens is read from them in front of any others, unless these can belong to the type.
-/
namespace ApiHandbook.Source

section
variable {tokens rest : List Token}

theorem accept?_eq_some {text : String} {taken : Reading tokens Unit}
    (accepted : accept? text tokens = some taken) :
    ∃ token, token.reads text = true ∧ tokens = token :: taken.rest := by
  cases tokens with
  | nil => cases accepted
  | cons token rest =>
    rw [accept?] at accepted
    split at accepted
    · rename_i reads
      cases accepted
      exact ⟨token, reads, rfl⟩
    · cases accepted

theorem accept?_cons {token : Token} {text : String} (reads : token.reads text = true)
    (rest : List Token) : accept? text (token :: rest) = some (.one () token rest) := by
  rw [accept?, if_pos reads]

theorem accept?_cons_none {token : Token} {text : String} (other : token.reads text = false)
    (rest : List Token) : accept? text (token :: rest) = none := by
  rw [accept?, if_neg (by simp [other])]

theorem expect_cons {token : Token} {text : String} (reads : token.reads text = true)
    (endLine : Nat) (rest : List Token) :
    expect endLine text (token :: rest) = .ok (.one () token rest) := by
  rw [expect, accept?_cons reads]

theorem expect_eq_ok {endLine : Nat} {text : String} {taken : Reading tokens Unit}
    (expected : expect endLine text tokens = .ok taken) :
    ∃ token, token.reads text = true ∧ tokens = token :: taken.rest := by
  rw [expect] at expected
  split at expected
  · rename_i accepted
    cases expected
    exact accept?_eq_some accepted
  · cases expected

/-! ## Groups -/

/-- A group is its opening mark and what follows up to its end. -/
theorem takes_skipGroup_iff {endLine : Nat} {opening closing : String} :
    Takes (skipGroup endLine opening closing tokens) () rest ↔
      ∃ first inner, first.reads opening = true ∧ tokens = first :: inner ∧
        Closes opening closing 0 inner rest := by
  constructor
  · rintro ⟨tail, shorter, skipped⟩
    obtain ⟨start, expected, skipped⟩ := ok_of_bind skipped
    obtain ⟨first, reads, tokens_eq⟩ := expect_eq_ok expected
    refine ⟨first, start.rest, reads, tokens_eq, ?_⟩
    split at skipped
    · rename_i group found
      cases skipped
      rw [Closes, found]
      rfl
    · cases skipped
  · rintro ⟨first, inner, reads, rfl, closes⟩
    obtain ⟨group, found, rest_eq⟩ := Option.map_eq_some_iff.mp closes
    rw [skipGroup, expect_cons reads]
    simp only [bind, Except.bind, Reading.one, found]
    exact takes_ok rfl rest_eq

theorem Closes.append {opening closing : String} {depth : Nat} {after : List Token}
    (closes : Closes opening closing depth tokens after) (more : List Token) :
    Closes opening closing depth (tokens ++ more) (after ++ more) := by
  induction tokens generalizing depth with
  | nil => cases closes
  | cons token rest ih =>
    rw [Closes, closeGroup.eq_def] at closes
    simp only at closes
    by_cases opens : token.isMark opening = true
    · rw [if_pos opens, Option.map_map] at closes
      exact closes_opening opens (ih closes)
    · rw [if_neg opens] at closes
      rw [Bool.not_eq_true] at opens
      by_cases ends : token.isMark closing = true
      · rw [if_pos ends] at closes
        cases depth with
        | zero =>
          cases closes
          exact closes_last opens ends
        | succ depth =>
          rw [Option.map_map] at closes
          exact closes_closing opens ends (ih closes)
      · rw [if_neg ends, Option.map_map] at closes
        exact closes_other opens (Bool.not_eq_true _ ▸ ends) (ih closes)

theorem skipGroup_append {endLine : Nat} {opening closing : String}
    (taken : Takes (skipGroup endLine opening closing tokens) () rest) (more : List Token) :
    Takes (skipGroup endLine opening closing (tokens ++ more)) () (rest ++ more) := by
  obtain ⟨first, inner, reads, rfl, closes⟩ := takes_skipGroup_iff.mp taken
  exact takes_skipGroup_iff.mpr ⟨first, inner ++ more, reads, rfl, closes.append more⟩

/-! ## Paths -/

theorem skipArguments_append {endLine : Nat} {generic : Bool} {more : List Token}
    (passed : Passes (skipArguments endLine tokens) generic rest)
    (ends : tokens = [] → continuesPath more = false) :
    Passes (skipArguments endLine (tokens ++ more)) generic (rest ++ more) := by
  obtain ⟨tail, passed⟩ := passed
  cases tokens with
  | nil =>
    cases passed
    have no_angle : (more.head?.any fun token => token.reads "<" && !token.startsLine) = false := by
      cases more with
      | nil => rfl
      | cons token more => exact (Bool.or_eq_false_iff.mp (ends rfl)).1
    rw [List.nil_append, skipArguments, no_angle, if_neg Bool.false_ne_true]
    exact ⟨_, rfl⟩
  | cons token inner =>
    rw [skipArguments, List.head?_cons] at passed
    rw [List.cons_append, skipArguments, List.head?_cons]
    split at passed
    · rename_i angle
      obtain ⟨group, skipped, passed⟩ := ok_of_bind passed
      cases passed
      have taken : Takes (skipGroup endLine "<" ">" (token :: inner)) () group.rest :=
        ⟨group.tail, group.shorter, skipped⟩
      have extended : Takes (skipGroup endLine "<" ">" (token :: (inner ++ more))) ()
          (group.rest ++ more) := skipGroup_append taken more
      obtain ⟨_, _, extended⟩ := extended
      rw [if_pos angle, extended]
      exact ⟨_, rfl⟩
    · rename_i no_angle
      cases passed
      rw [if_neg no_angle]
      exact ⟨_, rfl⟩

theorem acceptName?_eq_some {name : Reading tokens Token}
    (accepted : acceptName? tokens = some name) :
    name.value.kind = .name ∧ tokens = name.value :: name.rest := by
  cases tokens with
  | nil => cases accepted
  | cons token rest =>
    rw [acceptName?] at accepted
    split at accepted
    · rename_i named
      cases accepted
      exact ⟨named, rfl⟩
    · cases accepted

theorem acceptPointName?_eq_some {name : Reading tokens String}
    (accepted : acceptPointName? tokens = some name) :
    ∃ point word, point.reads "." = true ∧ word.kind = .name ∧ name.value = word.text ∧
      tokens = point :: word :: name.rest := by
  obtain ⟨point, at_point, accepted⟩ := Option.bind_eq_some_iff.mp accepted
  obtain ⟨word, at_word, accepted⟩ := Option.bind_eq_some_iff.mp accepted
  obtain ⟨mark, reads, tokens_eq⟩ := accept?_eq_some at_point
  obtain ⟨named, behind_eq⟩ := acceptName?_eq_some at_word
  cases accepted
  exact ⟨mark, word.value, reads, named, rfl, behind_eq ▸ tokens_eq⟩

theorem acceptPointName?_cons {point word : Token} (reads : point.reads "." = true)
    (named : word.kind = .name) (rest : List Token) :
    ∃ tail shorter, acceptPointName? (point :: word :: rest) =
      some ⟨word.text, rest, tail, shorter⟩ := by
  have at_word : acceptName? (word :: rest) = some (.one word word rest) := if_pos named
  refine ⟨(List.suffix_cons word rest).trans (List.suffix_cons point _), ?_, ?_⟩
  · simp only [List.length_cons]
    omega
  · rw [acceptPointName?, accept?_cons reads]
    simp only [bind, Option.bind, Reading.one, at_word]
    rfl

end

theorem readPath_append {endLine : Nat} {tokens rest : List Token} {path : Bool × List String}
    {more : List Token} (passed : Passes (readPath endLine tokens) path rest)
    (ends : continuesPath (rest ++ more) = false) :
    Passes (readPath endLine (tokens ++ more)) path (rest ++ more) := by
  obtain ⟨tail, read⟩ := passed
  rw [readPath] at read
  obtain ⟨arguments, skipped, read⟩ := ok_of_bind read
  have passed : Passes (skipArguments endLine tokens) arguments.value arguments.rest :=
    ⟨arguments.tail, skipped⟩
  cases found : acceptPointName? arguments.rest with
  | none =>
    rw [found] at read
    cases read
    have last : tokens = [] → continuesPath more = false := by
      rintro rfl
      rw [List.suffix_nil.mp arguments.tail] at ends
      exact ends
    obtain ⟨_, extended⟩ := skipArguments_append passed last
    rw [readPath, extended]
    simp only [bind, Except.bind, acceptPointName?_none ends]
    exact ⟨_, rfl⟩
  | some name =>
    obtain ⟨point, word, reads, named, value_eq, rest_eq⟩ := acceptPointName?_eq_some found
    rw [found] at read
    obtain ⟨further, read_on, read⟩ := ok_of_bind read
    cases read
    have last : tokens = [] → continuesPath more = false := by
      rintro rfl
      exact absurd (List.suffix_nil.mp arguments.tail) (by rw [rest_eq]; exact List.cons_ne_nil _ _)
    have extended := skipArguments_append passed last
    have shorter : name.rest.length < tokens.length :=
      Nat.lt_of_lt_of_le name.shorter arguments.tail.length_le
    obtain ⟨_, further_extended⟩ := readPath_append ⟨further.tail, read_on⟩ ends
    obtain ⟨_, _, accepted⟩ := acceptPointName?_cons reads named (name.rest ++ more)
    rw [rest_eq] at extended
    obtain ⟨_, extended⟩ := extended
    rw [readPath, extended]
    simp only [bind, Except.bind, List.cons_append, accepted, further_extended, value_eq]
    exact ⟨_, rfl⟩
termination_by tokens.length

/-! ## Whole types -/

section
variable {endLine : Nat} {tokens rest more : List Token}

theorem textBefore_append (tail : rest <:+ tokens) (more : List Token) :
    textBefore (rest ++ more) (tokens ++ more) = textBefore rest tokens := by
  obtain ⟨front, rfl⟩ := tail
  simp only [textBefore, List.append_assoc, List.length_append, Nat.add_sub_cancel, List.take_left]

/-- A type is its head and optional marks, and a function has a result behind an arrow. -/
theorem readShape_cases {shape : TypeShape} (taken : Takes (readShape endLine tokens) shape rest) :
    ∃ head marks, (∀ mark ∈ marks, mark.isOptionalMark = true) ∧
      (Takes (readTypeHead endLine tokens) head (marks ++ rest) ∧
          shape = head.shape marks.length (textBefore rest tokens) ∨
        ∃ arrow behind result, arrow.reads "->" = true ∧
          Takes (readTypeHead endLine tokens) head (marks ++ arrow :: behind) ∧
          behind.length < tokens.length ∧ Takes (readShape endLine behind) result rest ∧
          shape = .unsupported (textBefore rest tokens)) := by
  obtain ⟨tail, shorter, read⟩ := taken
  rw [readShape] at read
  obtain ⟨head, head_eq, read⟩ := ok_of_bind read
  have split := List.takeWhile_append_dropWhile (p := Token.isOptionalMark) (l := head.rest)
  refine ⟨head.value, head.rest.takeWhile Token.isOptionalMark,
    fun mark => List.mem_takeWhile_imp, ?_⟩
  have taken : Takes (readTypeHead endLine tokens) head.value head.rest :=
    ⟨head.tail, head.shorter, head_eq⟩
  rw [← split] at taken
  dsimp only at read
  split at read
  · cases read
    exact .inl ⟨taken, rfl⟩
  · rename_i arrow accepted
    obtain ⟨result, result_eq, read⟩ := ok_of_bind read
    cases read
    obtain ⟨token, reads, behind_eq⟩ := accept?_eq_some accepted
    have left : head.rest.dropWhile Token.isOptionalMark = token :: arrow.rest := behind_eq
    rw [left] at taken
    refine .inr ⟨token, arrow.rest, result.value, reads, taken, ?_,
      ⟨result.tail, result.shorter, result_eq⟩, rfl⟩
    have := arrow.shorter
    have := (passWhile Token.isOptionalMark head.rest).tail.length_le
    have := head.shorter
    omega

/-- Behind a head, an optional mark or an arrow ends the path. -/
theorem not_continuesPath_cons {token : Token} {behind : List Token}
    (ends : token.isOptionalMark = true ∨ token.reads "->" = true) :
    continuesPath (token :: behind) = false := by
  have other : token.reads "<" = false ∧ token.reads "." = false := by
    simp only [Token.isOptionalMark, Token.reads, Bool.and_eq_true, Bool.or_eq_true,
      decide_eq_true_eq] at ends
    rcases ends with ⟨⟨_, text⟩ | ⟨_, text⟩, _⟩ | ⟨_, text⟩ <;> simp [Token.reads, text]
  simp [continuesPath, other]

theorem not_continuesPath_marks {marks : List Token}
    (optional : ∀ mark ∈ marks, mark.isOptionalMark = true) (ends : continuesPath rest = false) :
    continuesPath (marks ++ rest) = false := by
  cases marks with
  | nil => exact ends
  | cons mark marks => exact not_continuesPath_cons (.inl (optional mark List.mem_cons_self))

theorem not_continuesType_cons {token : Token} {behind : List Token} {text : String}
    (reads : token.reads text = true) (other : text ∉ shapeMarks) :
    continuesType (token :: behind) = false := by
  simp only [Token.reads, Bool.and_eq_true, decide_eq_true_eq] at reads
  have apart : ∀ mark ∈ shapeMarks, token.reads mark = false := by
    intro mark listed
    have different : ¬ token.text = mark := fun same => other (reads.2 ▸ same ▸ listed)
    simp [Token.reads, different]
  simp [shapeMarks, pathMarks] at apart
  simp [continuesType, continuesPath, Token.isOptionalMark, apart]

theorem Takes.length_lt {α : Type} {step : Except SyntaxError (Reading tokens α)} {value : α}
    (taken : Takes step value rest) : rest.length < tokens.length := taken.choose_spec.choose

/-- How the head of a type is read, by its first token. -/
inductive HeadRead (endLine : Nat) : List Token → TypeHead → List Token → Prop
  | array {opening close : Token} {tokens rest : List Token} {item : TypeShape}
      (opens : opening.reads "[" = true)
      (inner : Takes (readShape endLine tokens) item (close :: rest))
      (closes : close.reads "]" = true) : HeadRead endLine (opening :: tokens) (.array item) rest
  | dictionary {opening middle close : Token} {tokens values rest : List Token}
      {key value : TypeShape} (opens : opening.reads "[" = true)
      (first : Takes (readShape endLine tokens) key (middle :: values))
      (colon : middle.reads ":" = true)
      (second : Takes (readShape endLine values) value (close :: rest))
      (closes : close.reads "]" = true) : HeadRead endLine (opening :: tokens) .other rest
  | group {opening : Token} {tokens rest : List Token} (opens : opening.reads "(" = true)
      (skipped : Takes (skipGroup endLine "(" ")" (opening :: tokens)) () rest) :
      HeadRead endLine (opening :: tokens) .other rest
  | existential {word : Token} {tokens rest : List Token} {head : TypeHead}
      (named : word.kind = .name) (known : word.text ∈ existentialWords)
      (inner : Takes (readTypeHead endLine tokens) head rest) :
      HeadRead endLine (word :: tokens) .other rest
  | path {word : Token} {tokens rest : List Token} {generic : Bool} {names : List String}
      (named : word.kind = .name) (plain : word.text ∉ "[" :: "(" :: existentialWords)
      (further : Passes (readPath endLine tokens) (generic, names) rest) :
      HeadRead endLine (word :: tokens)
        (if generic then .other else .path (".".intercalate (word.text :: names))) rest

theorem Token.text_of_reads {token : Token} {text : String} (reads : token.reads text = true) :
    token.text = text := by
  simp only [Token.reads, Bool.and_eq_true, decide_eq_true_eq] at reads
  exact reads.2

theorem Token.not_reads {token : Token} {text : String} (other : token.text ≠ text) :
    token.reads text = false := by
  simp [Token.reads, other]

theorem headRead_of_takes {head : TypeHead}
    (taken : Takes (readTypeHead endLine tokens) head rest) :
    HeadRead endLine tokens head rest := by
  obtain ⟨tail, shorter, read⟩ := taken
  cases tokens with
  | nil =>
    rw [readTypeHead] at read
    cases read
  | cons token inner =>
    rw [readTypeHead] at read
    split at read
    · rename_i opens
      obtain ⟨item, item_eq, read⟩ := ok_of_bind read
      have item_taken : Takes (readShape endLine inner) item.value item.rest :=
        ⟨item.tail, item.shorter, item_eq⟩
      split at read
      · obtain ⟨close, close_eq, read⟩ := ok_of_bind read
        cases read
        obtain ⟨mark, closes, behind_eq⟩ := expect_eq_ok close_eq
        rw [behind_eq] at item_taken
        exact .array opens item_taken closes
      · rename_i colon accepted
        obtain ⟨value, value_eq, read⟩ := ok_of_bind read
        obtain ⟨close, close_eq, read⟩ := ok_of_bind read
        cases read
        obtain ⟨middle, parts, behind_eq⟩ := accept?_eq_some accepted
        obtain ⟨mark, closes, value_behind⟩ := expect_eq_ok close_eq
        have value_taken : Takes (readShape endLine colon.rest) value.value value.rest :=
          ⟨value.tail, value.shorter, value_eq⟩
        rw [behind_eq] at item_taken
        rw [value_behind] at value_taken
        exact .dictionary opens item_taken parts value_taken closes
    · rename_i no_bracket
      split at read
      · rename_i opens
        obtain ⟨group, group_eq, read⟩ := ok_of_bind read
        cases read
        exact .group opens ⟨group.tail, group.shorter, group_eq⟩
      · rename_i no_parenthesis
        split at read
        · cases read
        · rename_i named
          rw [ne_eq, not_not] at named
          split at read
          · rename_i known
            obtain ⟨inner, inner_eq, read⟩ := ok_of_bind read
            cases read
            exact .existential named (List.contains_iff_mem.mp known)
              ⟨inner.tail, inner.shorter, inner_eq⟩
          · rename_i unknown
            obtain ⟨path, path_eq, read⟩ := ok_of_bind read
            cases read
            refine .path named ?_ ⟨path.tail, path_eq⟩
            simp only [List.mem_cons, not_or]
            refine ⟨?_, ?_, fun listed => unknown (List.contains_iff_mem.mpr listed)⟩
            · exact fun text => no_bracket (by simp [Token.reads, named, text])
            · exact fun text => no_parenthesis (by simp [Token.reads, named, text])

theorem HeadRead.takes {head : TypeHead} (read : HeadRead endLine tokens head rest) :
    Takes (readTypeHead endLine tokens) head rest := by
  cases read with
  | array opens inner closes =>
    obtain ⟨_, _, inner⟩ := inner
    have no_colon := Token.not_reads (ne_of_eq_of_ne (Token.text_of_reads closes)
      (by decide : "]" ≠ ":"))
    rw [readTypeHead, if_pos opens]
    simp only [inner, bind, Except.bind, accept?_cons_none no_colon, expect_cons closes]
    exact ⟨_, _, rfl⟩
  | dictionary opens first colon second closes =>
    obtain ⟨_, _, first⟩ := first
    obtain ⟨_, _, second⟩ := second
    rw [readTypeHead, if_pos opens]
    simp only [first, bind, Except.bind, accept?_cons colon, Reading.one, second,
      expect_cons closes]
    exact ⟨_, _, rfl⟩
  | group opens skipped =>
    obtain ⟨_, _, skipped⟩ := skipped
    have no_bracket := Token.not_reads (ne_of_eq_of_ne (Token.text_of_reads opens)
      (by decide : "(" ≠ "["))
    rw [readTypeHead, if_neg (by simp [no_bracket]), if_pos opens]
    simp only [skipParentheses, skipped, bind, Except.bind]
    exact ⟨_, _, rfl⟩
  | existential named known inner =>
    obtain ⟨_, _, inner⟩ := inner
    have apart : ∀ text ∈ existentialWords, text ≠ "[" ∧ text ≠ "(" := by decide
    have no_bracket := Token.not_reads (apart _ known).1
    have no_parenthesis := Token.not_reads (apart _ known).2
    rw [readTypeHead, if_neg (by simp [no_bracket]), if_neg (by simp [no_parenthesis]),
      if_neg (by simp [named]), if_pos (List.contains_iff_mem.mpr known)]
    simp only [inner, bind, Except.bind]
    exact ⟨_, _, rfl⟩
  | path named plain further =>
    obtain ⟨_, further⟩ := further
    simp only [List.mem_cons, not_or] at plain
    have no_bracket := Token.not_reads plain.1
    have no_parenthesis := Token.not_reads plain.2.1
    rw [readTypeHead, if_neg (by simp [no_bracket]), if_neg (by simp [no_parenthesis]),
      if_neg (by simp [named]), if_neg (mt List.contains_iff_mem.mp plain.2.2)]
    simp only [further, bind, Except.bind]
    exact ⟨_, _, rfl⟩

end

/-- The head of a type in front of further tokens, given that shorter types are read in front of
them. The induction is over the words in front of an existential type. -/
theorem readTypeHead_append {endLine : Nat} {tokens rest more : List Token} {head : TypeHead}
    (shorter : ∀ inner rest shape, inner.length < tokens.length →
      Takes (readShape endLine inner) shape rest → continuesType (rest ++ more) = false →
      Takes (readShape endLine (inner ++ more)) shape (rest ++ more))
    (taken : Takes (readTypeHead endLine tokens) head rest)
    (ends : continuesPath (rest ++ more) = false) :
    Takes (readTypeHead endLine (tokens ++ more)) head (rest ++ more) := by
  induction tokens generalizing head with
  | nil => cases headRead_of_takes taken
  | cons token inner ih =>
    apply HeadRead.takes
    cases headRead_of_takes taken with
    | array opens item closes =>
      have extended := shorter _ _ _ (by simp) item (not_continuesType_cons closes (by decide))
      exact .array opens extended closes
    | dictionary opens key colon value closes =>
      have less := key.length_lt
      rw [List.length_cons] at less
      have key_extended := shorter _ _ _ (by simp) key (not_continuesType_cons colon (by decide))
      have value_extended := shorter _ _ _ (by rw [List.length_cons]; omega) value
        (not_continuesType_cons closes (by decide))
      exact .dictionary opens key_extended colon value_extended closes
    | group opens skipped => exact .group opens (skipGroup_append skipped more)
    | existential named known innermost =>
      refine .existential named known (ih ?_ innermost)
      exact fun below rest shape less => shorter below rest shape (Nat.lt_succ_of_lt less)
    | path named plain further => exact .path named plain (readPath_append further ends)

/-- A type is read in front of anything that cannot belong to it. -/
theorem readShape_append {endLine : Nat} {tokens rest more : List Token} {shape : TypeShape}
    (taken : Takes (readShape endLine tokens) shape rest)
    (ends : continuesType (rest ++ more) = false) :
    Takes (readShape endLine (tokens ++ more)) shape (rest ++ more) := by
  induction size : tokens.length using Nat.strongRecOn generalizing tokens rest shape with
  | _ size ih =>
    have shorter : ∀ inner rest shape, inner.length < tokens.length →
        Takes (readShape endLine inner) shape rest → continuesType (rest ++ more) = false →
        Takes (readShape endLine (inner ++ more)) shape (rest ++ more) :=
      fun inner rest shape less taken ends => ih _ (size ▸ less) taken ends rfl
    have tail : rest <:+ tokens := taken.choose
    obtain ⟨head, marks, optional, ⟨head_taken, rfl⟩ |
      ⟨arrow, behind, result, reads, head_taken, less, further, rfl⟩⟩ := readShape_cases taken
    · have path_ends : continuesPath (marks ++ rest ++ more) = false := by
        rw [List.append_assoc]
        exact not_continuesPath_marks optional (Bool.or_eq_false_iff.mp ends).1
      have extended := readTypeHead_append shorter head_taken path_ends
      rw [List.append_assoc] at extended
      rw [← textBefore_append tail more]
      exact readShape_head marks extended optional (ends_type ends)
    · have path_ends : continuesPath (marks ++ arrow :: behind ++ more) = false := by
        rw [List.append_assoc]
        exact not_continuesPath_marks optional (not_continuesPath_cons (.inr reads))
      have extended := readTypeHead_append shorter head_taken path_ends
      rw [List.append_assoc] at extended
      rw [← textBefore_append tail more]
      exact readShape_function marks reads extended optional (shorter _ _ _ less further ends)

end ApiHandbook.Source
