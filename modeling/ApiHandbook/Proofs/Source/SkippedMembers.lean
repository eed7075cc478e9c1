import ApiHandbook.Proofs.Source.RoundTrip
import ApiHandbook.Proofs.Source.TypesInContext

/-!
# Members that are passed over

Functions, protocols, extensions and computed fields give no declaration. Whatever their bodies
contain, the reader stops right behind them, with any attributes and modifiers in front.
-/
namespace ApiHandbook.Source

/-! ## Groups of tokens -/

/-- Tokens in which all that is opened is closed again, each group inside the one around it. -/
inductive Nested (opens closes : Token → Bool) : List Token → Prop
  | nil : Nested opens closes []
  | token {token : Token} {rest : List Token} (no_opening : opens token = false)
      (no_closing : closes token = false) (further : Nested opens closes rest) :
      Nested opens closes (token :: rest)
  | group {first last : Token} {inner rest : List Token} (opening : opens first = true)
      (nested : Nested opens closes inner) (closing : closes last = true)
      (further : Nested opens closes rest) : Nested opens closes (first :: inner ++ last :: rest)

/-- What stands between two marks, with the marks. -/
inductive Group (opening closing : String) : List Token → Prop
  | mk {first last : Token} {inner : List Token} (opens : first.isMark opening = true)
      (nested : Nested (·.isMark opening) (·.isMark closing) inner)
      (closes : last.isMark closing = true) : Group opening closing (first :: inner ++ [last])

theorem Token.reads_of_isMark {token : Token} {text : String} (mark : token.isMark text = true) :
    token.reads text = true := by
  simp only [isMark, Bool.and_eq_true] at mark
  simp [reads, mark]

theorem Token.text_of_isMark {token : Token} {text : String} (mark : token.isMark text = true) :
    token.text = text :=
  Token.text_of_reads (Token.reads_of_isMark mark)

theorem Token.isMark_unique {token : Token} {text other : String} (different : text ≠ other)
    (mark : token.isMark text = true) : token.isMark other = false := by
  simp [isMark, Token.text_of_isMark mark, different]

theorem Nested.closes {opening closing : String} (different : closing ≠ opening)
    {inner : List Token} (nested : Nested (·.isMark opening) (·.isMark closing) inner) {depth : Nat}
    {rest after : List Token} (behind : Closes opening closing depth rest after) :
    Closes opening closing depth (inner ++ rest) after := by
  induction nested generalizing depth rest with
  | nil => exact behind
  | token no_opening no_closing _ ih => exact closes_other no_opening no_closing (ih behind)
  | group opens _ ends _ nested further =>
    rw [List.append_assoc]
    apply closes_opening opens
    apply nested
    exact closes_closing (Token.isMark_unique different ends) ends (further behind)

theorem Group.takes {opening closing : String} (different : closing ≠ opening) {tokens : List Token}
    (group : Group opening closing tokens) (endLine : Nat) (rest : List Token) :
    Takes (skipGroup endLine opening closing (tokens ++ rest)) () rest := by
  obtain ⟨opens, nested, ends⟩ := group
  rw [List.append_assoc]
  refine takes_skipGroup_iff.mpr
    ⟨_, _, Token.reads_of_isMark opens, rfl, nested.closes different ?_⟩
  exact closes_last (Token.isMark_unique different ends) ends

theorem Group.exists_first {opening closing : String} {tokens : List Token}
    (group : Group opening closing tokens) :
    ∃ first behind, tokens = first :: behind ∧ first.isMark opening = true := by
  obtain ⟨opens, _, _⟩ := group
  exact ⟨_, _, rfl, opens⟩

/-! ## Attributes and modifiers -/

inductive Attributes : List Token → Prop
  | nil : Attributes []
  | plain {sign name : Token} {rest : List Token} (at_sign : sign.isMark "@" = true)
      (named : name.kind = .name) (further : Attributes rest) : Attributes (sign :: name :: rest)
  /-- Arguments begin on the line of the name. -/
  | applied {sign name : Token} {arguments rest : List Token} (at_sign : sign.isMark "@" = true)
      (named : name.kind = .name) (group : Group "(" ")" arguments)
      (in_line : ∀ first ∈ arguments.head?, first.startsLine = false)
      (further : Attributes rest) : Attributes (sign :: name :: (arguments ++ rest))

/-- Modifiers in front of the word `next`. `class` is one only in front of another modifier or of
the keyword of a member that can be overridden. -/
inductive Modifiers (next : String) : List Token → Prop
  | nil : Modifiers next []
  | plain {word : Token} {rest : List Token} (named : word.kind = .name)
      (known : word.text ∈ modifierWords) (further : Modifiers next rest) :
      Modifiers next (word :: rest)
  | applied {word : Token} {argument rest : List Token} (named : word.kind = .name)
      (known : word.text ∈ modifierWords) (group : Group "(" ")" argument)
      (further : Modifiers next rest) : Modifiers next (word :: (argument ++ rest))
  | ofType {word : Token} {rest : List Token} (named : word.kind = .name)
      (text : word.text = "class")
      (followed : rest.head?.elim next Token.text ∈ memberWords ++ modifierWords)
      (further : Modifiers next rest) : Modifiers next (word :: rest)

section
variable {endLine : Nat} {tokens rest : List Token}

theorem Clear.no_arguments (clear : Clear ["("] tokens) :
    (tokens.head?.any fun token => token.reads "(" && !token.startsLine) = false := by
  cases tokens with
  | nil => rfl
  | cons token behind => simp [clear.not_reads (by simp : "(" ∈ ["("])]

theorem skipAttributes_plain {sign name : Token} (at_sign : sign.isMark "@" = true)
    (named : name.kind = .name)
    (apart : (tokens.head?.any fun token => token.reads "(" && !token.startsLine) = false)
    (further : Passes (skipAttributes endLine tokens) () rest) :
    Passes (skipAttributes endLine (sign :: name :: tokens)) () rest := by
  obtain ⟨_, further⟩ := further
  have at_name : expectName endLine (name :: tokens) = .ok (.one name name tokens) := by
    rw [expectName, acceptName?, if_pos named]
  rw [skipAttributes, accept?_cons (Token.reads_of_isMark at_sign)]
  simp only [Reading.one, at_name, bind, Except.bind, apart, Bool.false_eq_true, if_false, further]
  exact ⟨_, rfl⟩

theorem skipAttributes_applied {sign name : Token} {arguments : List Token}
    (at_sign : sign.isMark "@" = true) (named : name.kind = .name)
    (group : Group "(" ")" arguments)
    (in_line : ∀ first ∈ arguments.head?, first.startsLine = false)
    (further : Passes (skipAttributes endLine tokens) () rest) :
    Passes (skipAttributes endLine (sign :: name :: (arguments ++ tokens))) () rest := by
  obtain ⟨_, further⟩ := further
  obtain ⟨_, _, skipped⟩ := group.takes (by decide) endLine tokens
  have at_name : expectName endLine (name :: (arguments ++ tokens)) =
      .ok (.one name name (arguments ++ tokens)) := by
    rw [expectName, acceptName?, if_pos named]
  have has_arguments : ((arguments ++ tokens).head?.any fun token =>
      token.reads "(" && !token.startsLine) = true := by
    obtain ⟨first, behind, rfl, opens⟩ := group.exists_first
    simp [Token.reads_of_isMark opens, in_line first rfl]
  rw [skipAttributes, accept?_cons (Token.reads_of_isMark at_sign)]
  simp only [Reading.one, at_name, bind, Except.bind, has_arguments, if_true, skipParentheses,
    skipped, further]
  exact ⟨_, rfl⟩

theorem Attributes.passes (endLine : Nat) {attributes : List Token}
    (attributed : Attributes attributes) (clear : Clear ["@", "("] rest) :
    Passes (skipAttributes endLine (attributes ++ rest)) () rest := by
  induction attributed with
  | nil =>
    rw [List.nil_append, skipAttributes_none endLine (clear.mono (by simp))]
    exact ⟨_, rfl⟩
  | @plain _ _ others at_sign named further ih =>
    have no_parenthesis : Clear ["("] (others ++ rest) := by
      cases further with
      | nil => exact clear.mono (by simp)
      | plain next_sign _ _ | applied next_sign _ _ _ _ =>
        intro token at_head
        cases at_head
        simp [Token.text_of_isMark next_sign]
    exact skipAttributes_plain at_sign named no_parenthesis.no_arguments ih
  | applied at_sign named group in_line _ ih =>
    rw [List.cons_append, List.cons_append, List.append_assoc]
    exact skipAttributes_applied at_sign named group in_line ih

/-- A modifier without an argument, judged by the name behind it. -/
theorem readModifiers_plain {word next : Token} {words : List String} (named : word.kind = .name)
    (modifies : isAtModifier (word :: next :: tokens) = true) (apart : next.text ≠ "(")
    (further : Passes (readModifiers endLine (next :: tokens)) words rest) :
    Passes (readModifiers endLine (word :: next :: tokens)) (word.text :: words) rest := by
  obtain ⟨_, further⟩ := further
  have at_word : acceptName? (word :: next :: tokens) = some (.one word word (next :: tokens)) :=
    if_pos named
  have no_argument : isAt "(" (next :: tokens) = false := Token.not_reads apart
  rw [readModifiers, modifies, at_word]
  simp only [if_true, Reading.one, no_argument, Bool.false_eq_true, if_false, further, bind,
    Except.bind]
  exact ⟨_, rfl⟩

theorem readModifiers_applied {word : Token} {argument : List Token} {words : List String}
    (named : word.kind = .name) (known : word.text ∈ modifierWords)
    (group : Group "(" ")" argument)
    (further : Passes (readModifiers endLine tokens) words rest) :
    Passes (readModifiers endLine (word :: (argument ++ tokens))) (word.text :: words) rest := by
  obtain ⟨_, further⟩ := further
  obtain ⟨_, _, skipped⟩ := group.takes (by decide) endLine tokens
  obtain ⟨first, behind, first_eq, opens⟩ := group.exists_first
  have has_argument : isAt "(" (argument ++ tokens) = true := by
    rw [first_eq]
    exact Token.reads_of_isMark opens
  have modifies : isAtModifier (word :: (argument ++ tokens)) = true := by
    have no_class : word.text ≠ "class" := by
      intro same
      exact absurd (same ▸ known) (by decide)
    simp only [isAtModifier, named, no_class, if_false, List.contains_iff_mem.mpr known, first_eq,
      List.cons_append, List.head?_cons, Option.any_some, Token.reads_of_isMark opens]
    simp
  have at_word : acceptName? (word :: (argument ++ tokens)) =
      some (.one word word (argument ++ tokens)) := if_pos named
  rw [readModifiers, modifies, at_word]
  simp only [if_true, Reading.one, has_argument, skipParentheses, skipped, further, bind,
    Except.bind]
  exact ⟨_, rfl⟩

/-- The word behind some modifiers: a further modifier or the keyword. -/
theorem Modifiers.exists_next {next : String} {modifiers : List Token}
    (modified : Modifiers next modifiers) {keyword : Token} (named : keyword.kind = .name)
    (text : keyword.text = next) (behind : List Token) :
    ∃ word others, modifiers ++ keyword :: behind = word :: others ∧ word.kind = .name ∧
      word.text = modifiers.head?.elim next Token.text ∧
      word.text ∈ next :: "class" :: modifierWords := by
  cases modified with
  | nil => exact ⟨keyword, behind, rfl, named, text, by simp [text]⟩
  | plain word_named known _ =>
    exact ⟨_, _, rfl, word_named, rfl, List.mem_cons_of_mem _ (List.mem_cons_of_mem _ known)⟩
  | applied word_named known _ _ =>
    exact ⟨_, _, rfl, word_named, rfl, List.mem_cons_of_mem _ (List.mem_cons_of_mem _ known)⟩
  | ofType word_named text _ _ =>
    exact ⟨_, _, rfl, word_named, rfl, List.mem_cons_of_mem _ (by simp [text])⟩

theorem Modifiers.passes (endLine : Nat) {next : String} {modifiers : List Token}
    (modified : Modifiers next modifiers) {keyword : Token} (named : keyword.kind = .name)
    (text : keyword.text = next) (last : next ∉ "(" :: "class" :: modifierWords)
    (behind : List Token) :
    ∃ words, Passes (readModifiers endLine (modifiers ++ keyword :: behind)) words
      (keyword :: behind) := by
  have apart : ∀ word ∈ next :: "class" :: modifierWords, word ≠ "(" := by
    rw [List.forall_mem_cons]
    exact ⟨List.ne_of_not_mem_cons last, by decide⟩
  induction modified with
  | nil =>
    have no_modifier : isAtModifier (keyword :: behind) = false := by
      simp only [List.mem_cons, not_or] at last
      simp [isAtModifier, text, last]
    rw [List.nil_append, readModifiers, no_modifier]
    exact ⟨[], _, rfl⟩
  | @plain word others word_named known further ih =>
    obtain ⟨words, passes⟩ := ih
    obtain ⟨following, rest, rest_eq, following_named, -, listed⟩ :=
      further.exists_next named text behind
    have no_class : word.text ≠ "class" := by
      intro same
      exact absurd (same ▸ known) (by decide)
    have modifies : isAtModifier (word :: following :: rest) = true := by
      simp [isAtModifier, word_named, no_class, known, following_named]
    rw [List.cons_append]
    rw [rest_eq] at passes ⊢
    exact ⟨_, readModifiers_plain word_named modifies (apart _ listed) passes⟩
  | applied word_named known group _ ih =>
    obtain ⟨words, passes⟩ := ih
    rw [List.cons_append, List.append_assoc]
    exact ⟨_, readModifiers_applied word_named known group passes⟩
  | @ofType word others word_named word_text followed further ih =>
    obtain ⟨words, passes⟩ := ih
    obtain ⟨following, rest, rest_eq, -, following_text, listed⟩ :=
      further.exists_next named text behind
    rw [← following_text] at followed
    have modifies : isAtModifier (word :: following :: rest) = true := by
      simp only [isAtModifier, word_named, word_text, if_true, textAt]
      simpa using followed
    rw [List.cons_append]
    rw [rest_eq] at passes ⊢
    exact ⟨_, readModifiers_plain word_named modifies (apart _ listed) passes⟩

end

/-! ## Functions -/

def Token.opensBracket (token : Token) : Bool := token.isMarkIn ["(", "["]

def Token.closesBracket (token : Token) : Bool := token.isMarkIn [")", "]"]

/-- Round and square brackets are closed where they have to be. -/
def Bracketed : List Token → Prop := Nested Token.opensBracket Token.closesBracket

/-- What stands between the keyword of a function and its body. A token stands outside of brackets
if as many of them are closed as are opened in front of it. -/
structure FunctionHeader (header : List Token) : Prop where
  bracketed : Bracketed header
  outside : ∀ index (inside : index < header.length),
    (header.take index).countP Token.opensBracket =
        (header.take index).countP Token.closesBracket →
      header[index].isMarkIn [openBrace, closeBrace, ";"] = false ∧
      ((header.take index).any Token.closesBracket = true → header[index].startsLine = true →
        header[index].text ∈ ["->", "throws", "rethrows", "async", "where"])

theorem Token.not_isMarkIn {token : Token} {texts others : List String}
    (apart : ∀ text ∈ texts, text ∉ others) (mark : token.isMarkIn texts = true) :
    token.isMarkIn others = false := by
  simp only [isMarkIn, Bool.and_eq_true, List.contains_iff_mem] at mark
  rw [isMarkIn, Bool.and_eq_false_iff]
  exact .inr (by simpa using apart _ mark.2)

theorem Token.not_closesBracket {token : Token} (opens : token.opensBracket = true) :
    token.closesBracket = false := Token.not_isMarkIn (by decide) opens

theorem Token.not_opensBracket {token : Token} (closes : token.closesBracket = true) :
    token.opensBracket = false := Token.not_isMarkIn (by decide) closes

theorem Nested.append {opens closes : Token → Bool} {front back : List Token}
    (first : Nested opens closes front) (second : Nested opens closes back) :
    Nested opens closes (front ++ back) := by
  induction first with
  | nil => exact second
  | token no_opening no_closing _ ih => exact .token no_opening no_closing ih
  | group opening nested closing _ _ ih =>
    rw [List.append_assoc, List.cons_append]
    exact .group opening nested closing ih

/-- As many brackets are closed as are opened. -/
theorem Bracketed.countP_eq {tokens : List Token} (bracketed : Bracketed tokens) :
    tokens.countP Token.opensBracket = tokens.countP Token.closesBracket := by
  induction bracketed with
  | nil => rfl
  | token no_opening no_closing _ ih =>
    rw [List.countP_cons_of_neg (by simp [no_opening]),
      List.countP_cons_of_neg (by simp [no_closing]), ih]
  | group opening _ closing _ nested further =>
    simp only [List.cons_append, List.countP_cons, List.countP_append, opening, closing,
      Token.not_closesBracket opening, Token.not_opensBracket closing, nested, further]
    omega

section
variable {endLine : Nat} {rest : List Token} {depth : Int} {closed : Bool} {token : Token}
  {tokens : List Token}

/-- The depth behind a token. -/
def Token.depthBehind (depth : Int) (token : Token) : Int :=
  if token.opensBracket then depth + 1 else if token.closesBracket then depth - 1 else depth

/-- Inside of brackets every token is passed over, outside of them what does not end the header. -/
theorem skipFunction_token
    (onward : depth = 0 → token.isMarkIn [openBrace, closeBrace, ";"] = false ∧
      (closed = true → token.startsLine = true → token.text ∈ headerWords))
    (further : Passes (skipFunction endLine (token.depthBehind depth)
      (closed || token.closesBracket && depth = 1) tokens) () rest) :
    Passes (skipFunction endLine depth closed (token :: tokens)) () rest := by
  have no_body : (decide (depth = 0) && token.isMark openBrace) = false := by
    rw [Bool.and_eq_false_imp]
    intro outside
    have no_mark := (onward (of_decide_eq_true outside)).1
    simp_all [Token.isMarkIn, Token.isMark]
  have no_end : (decide (depth = 0) && (token.isMarkIn [closeBrace, ";"] ||
      closed && token.startsLine && !headerWords.contains token.text)) = false := by
    rw [Bool.and_eq_false_imp]
    intro outside
    obtain ⟨no_mark, in_line⟩ := onward (of_decide_eq_true outside)
    rw [Bool.or_eq_false_iff]
    constructor
    · simp_all [Token.isMarkIn]
    · simpa [Bool.and_eq_false_imp] using in_line
  obtain ⟨_, further⟩ := further
  rw [skipFunction]
  simp only [no_body, no_end, Bool.false_eq_true, if_false]
  by_cases opens : token.opensBracket = true
  · have depth_eq : token.depthBehind depth = depth + 1 := if_pos opens
    simp only [depth_eq, Token.not_closesBracket opens, Bool.false_and, Bool.or_false] at further
    rw [if_pos (show token.isMarkIn ["(", "["] = true from opens), further]
    exact ⟨_, rfl⟩
  · rw [if_neg (show ¬ token.isMarkIn ["(", "["] = true from opens)]
    by_cases closes : token.closesBracket = true
    · have depth_eq : token.depthBehind depth = depth - 1 := by
        rw [Token.depthBehind, if_neg opens, if_pos closes]
      simp only [depth_eq, closes, Bool.true_and] at further
      rw [if_pos (show token.isMarkIn [")", "]"] = true from closes), further]
      exact ⟨_, rfl⟩
    · have depth_eq : token.depthBehind depth = depth := by
        rw [Token.depthBehind, if_neg opens, if_neg closes]
      simp only [depth_eq, closes, Bool.false_and, Bool.or_false] at further
      rw [if_neg (show ¬ token.isMarkIn [")", "]"] = true from closes), further]
      exact ⟨_, rfl⟩

/-- Inside of brackets a bracketed text is passed over, whatever it contains. -/
theorem Bracketed.skipped {inner : List Token} (bracketed : Bracketed inner) (inside : 0 < depth)
    (further : Passes (skipFunction endLine depth closed tokens) () rest) :
    Passes (skipFunction endLine depth closed (inner ++ tokens)) () rest := by
  induction bracketed generalizing depth tokens with
  | nil => exact further
  | token no_opening no_closing _ ih =>
    apply skipFunction_token (fun outside => by omega)
    rw [Token.depthBehind, no_opening, no_closing]
    simpa using ih inside further
  | group opening _ closing _ nested behind =>
    rw [List.append_assoc, List.cons_append]
    apply skipFunction_token (fun outside => by omega)
    rw [Token.depthBehind, opening, Token.not_closesBracket opening]
    simp only [if_true, Bool.false_and, Bool.or_false]
    apply nested (by omega)
    rw [List.cons_append]
    apply skipFunction_token (fun outside => by omega)
    rw [Token.depthBehind, closing, Token.not_opensBracket closing]
    have still_open : ¬ depth + 1 = 1 := by omega
    simpa [still_open] using behind inside further

/-- Behind brackets that are all closed a token stands outside. -/
theorem FunctionHeader.outside_at {front ahead : List Token}
    (header : FunctionHeader (front ++ token :: ahead)) (passed : Bracketed front) :
    token.isMarkIn [openBrace, closeBrace, ";"] = false ∧
      (front.any Token.closesBracket = true → token.startsLine = true →
        token.text ∈ headerWords) := by
  have found := header.outside front.length (by simp)
  rw [List.take_left] at found
  simpa [headerWords] using found passed.countP_eq

/-- The header is passed over from its front to its end. The induction is over its brackets; `front`
is what has been passed. -/
theorem FunctionHeader.skipped {front ahead : List Token} (header : FunctionHeader (front ++ ahead))
    (passed : Bracketed front) (bracketed : Bracketed ahead)
    (further : ∀ closed, Passes (skipFunction endLine 0 closed tokens) () rest) :
    Passes (skipFunction endLine 0 (front.any Token.closesBracket) (ahead ++ tokens)) () rest := by
  induction bracketed generalizing front with
  | nil => exact further _
  | @token token ahead no_opening no_closing _ ih =>
    apply skipFunction_token fun _ => header.outside_at passed
    have onward := @ih (front ++ [token]) (by simpa using header)
      (passed.append (.token no_opening no_closing .nil))
    simpa [Token.depthBehind, no_opening, no_closing] using onward
  | @group first last inner ahead opening nested closing _ _ ih =>
    have group : Bracketed (first :: inner ++ [last]) := .group opening nested closing .nil
    have onward := @ih (front ++ (first :: inner ++ [last])) (by simpa using header)
      (passed.append group)
    rw [List.cons_append] at header
    rw [List.append_assoc, List.cons_append, List.cons_append]
    apply skipFunction_token fun _ => header.outside_at passed
    rw [Token.depthBehind, if_pos opening]
    apply Bracketed.skipped nested (by omega)
    apply skipFunction_token (fun outside => by omega)
    simpa [Token.depthBehind, closing, Token.not_opensBracket closing] using onward

/-- A header and a body are passed over, and nothing behind them. -/
theorem FunctionHeader.takes_body {header body : List Token} (headed : FunctionHeader header)
    (group : Group openBrace closeBrace body) (rest : List Token) :
    Passes (skipFunction endLine 0 false (header ++ (body ++ rest))) () rest := by
  refine @FunctionHeader.skipped endLine rest (body ++ rest) [] header headed .nil headed.bracketed
    fun closed => ?_
  have taken := group.takes (by decide) endLine rest
  obtain ⟨first, behind, rfl, opens⟩ := group.exists_first
  rw [List.cons_append] at taken ⊢
  obtain ⟨_, _, skipped⟩ := taken
  rw [skipFunction, opens]
  simp only [decide_true, Bool.true_and, if_true, skipBraces, skipped]
  exact ⟨_, rfl⟩

end

/-! ## Types and computed fields -/

/-- What has no opening brace is passed over, and then the body. -/
theorem skipType_passes {endLine : Nat} {header body : List Token}
    (headed : ∀ token ∈ header, token.reads openBrace = false)
    (group : Group openBrace closeBrace body) (rest : List Token) :
    Passes (skipType endLine (header ++ (body ++ rest))) () rest := by
  have taken := group.takes (by decide) endLine rest
  obtain ⟨first, behind, rfl, opens⟩ := group.exists_first
  obtain ⟨header_tail, passed⟩ : ∃ tail, passWhile (!·.reads openBrace)
      (header ++ (first :: behind ++ rest)) = ⟨header.length, first :: behind ++ rest, tail⟩ :=
    passWhile_append (by simpa using headed) (by simpa using Token.reads_of_isMark opens)
  obtain ⟨_, _, skipped⟩ := taken
  rw [skipType]
  generalize passWhile _ _ = passing at passed ⊢
  subst passed
  simp only [skipBraces, skipped, bind, Except.bind]
  exact ⟨_, rfl⟩

/-- The block behind a field computes it if it does not observe it. -/
theorem skipAccessors_computes (endLine : Nat) {first last : Token} {inner : List Token}
    (opens : first.isMark openBrace = true)
    (nested : Nested (·.isMark openBrace) (·.isMark closeBrace) inner)
    (closes : last.isMark closeBrace = true) (computes : Clear ["willSet", "didSet"] inner)
    (rest : List Token) :
    Passes (skipAccessors endLine false (first :: inner ++ [last] ++ rest)) true rest := by
  obtain ⟨_, _, skipped⟩ := (Group.mk opens nested closes).takes (by decide) endLine rest
  have at_brace : isAt openBrace (first :: inner ++ [last] ++ rest) = true :=
    Token.reads_of_isMark opens
  have no_observer : ["willSet", "didSet"].contains
      (textAt (first :: inner ++ [last] ++ rest).tail) = false := by
    cases inner with
    | nil => simp [textAt, Token.text_of_isMark closes, closeBrace]
    | cons token inner => simpa [textAt] using computes token rfl
  rw [skipAccessors, at_brace]
  simp only [if_true, skipBraces, skipped, bind, Except.bind, no_observer]
  exact ⟨_, rfl⟩

/-- A type behind a colon, in front of a block. -/
theorem readTypeClause_passes {endLine : Nat} {colon : Token} {type block : List Token}
    {shape : TypeShape} (annotated : colon.reads ":" = true)
    (typed : Takes (readShape endLine type) shape []) (at_brace : isAt openBrace block = true) :
    Passes (readTypeClause endLine (colon :: (type ++ block))) (some shape) block := by
  have type_ends : continuesType ([] ++ block) = false := by
    cases block with
    | nil => rfl
    | cons token block => exact not_continuesType_cons at_brace (by decide)
  obtain ⟨_, _, read⟩ := readShape_append typed type_ends
  unfold readTypeClause
  rw [accept?_cons annotated]
  simp only [Reading.one, read, bind, Except.bind]
  exact ⟨_, rfl⟩

/-- A computed field is read as no field at all. -/
theorem readBinding_computed {endLine : Nat} {name colon : Token} {type block rest : List Token}
    {shape : TypeShape} (named : name.kind = .name) (annotated : colon.reads ":" = true)
    (typed : Takes (readShape endLine type) shape []) (at_brace : isAt openBrace block = true)
    (computes : Passes (skipAccessors endLine false block) true rest) (words : List String)
    (comment : String) :
    Takes (readBinding endLine words comment (name :: colon :: (type ++ block))) [] rest := by
  have at_name : acceptName? (name :: colon :: (type ++ block)) =
      some (.one name name (colon :: (type ++ block))) := if_pos named
  obtain ⟨_, type_read⟩ := readTypeClause_passes annotated typed at_brace
  have no_value : readAssignment endLine block = .ok (.stay block none) := by
    apply readAssignment_none
    cases block with
    | nil => cases at_brace
    | cons token block =>
      intro first at_head
      cases at_head
      simp [Token.text_of_reads at_brace, openBrace]
  obtain ⟨_, computes⟩ := computes
  rw [readBinding, readBindingName, at_name]
  simp only [Reading.one, Reading.map, bind, Except.bind]
  simp only [type_read, no_value, Advance.stay, Option.isSome_none, computes]
  exact ⟨_, _, rfl⟩

theorem readBindings_single {endLine : Nat} {words : List String} {comment : String}
    {tokens rest : List Token} {declarations : List Declaration}
    (taken : Takes (readBinding endLine words comment tokens) declarations rest)
    (ends : isAt "," rest = false) :
    Takes (readBindings endLine words comment tokens) declarations rest := by
  obtain ⟨_, _, taken⟩ := taken
  have no_comma : accept? "," rest = none := by
    cases rest with
    | nil => rfl
    | cons token rest => exact accept?_cons_none ends rest
  rw [readBindings, taken]
  simp only [bind, Except.bind, no_comma]
  exact ⟨_, _, rfl⟩

/-! ## Whole members -/

def skippedWords : List String :=
  ["func", "init", "deinit", "subscript", "protocol", "extension", "var"]

/-- Behind the keyword the reader goes on to `rest` and finds no declaration. -/
def Skips (endLine : Nat) (keyword : Token) (behind rest : List Token) : Prop :=
  match Keyword.ofWord? keyword.text with
  | some .functionToSkip => Passes (skipFunction endLine 0 false behind) () rest
  | some .typeToSkip => Passes (skipType endLine behind) () rest
  | some .binding =>
    ∀ words comment, Takes (readBindings endLine words comment behind) [] rest
  | _ => False

theorem readMember_skips {endLine : Nat} {attributes modifiers behind rest : List Token}
    {keyword : Token} (attributed : Attributes attributes)
    (modified : Modifiers keyword.text modifiers) (named : keyword.kind = .name)
    (known : keyword.text ∈ skippedWords) (skips : Skips endLine keyword behind rest)
    (more : attributes ++ (modifiers ++ keyword :: behind) ≠ []) :
    Takes (readMember endLine (attributes ++ (modifiers ++ keyword :: behind)) more) [] rest := by
  have last : ∀ word ∈ skippedWords, word ∉ "(" :: "class" :: modifierWords := by decide
  have no_mark : ∀ word ∈ skippedWords ++ "class" :: modifierWords,
      word ∉ ["@", "("] := by decide
  have no_brace : ∀ word ∈ skippedWords, word ≠ openBrace := by decide
  have clear : Clear ["@", "("] (modifiers ++ keyword :: behind) := by
    obtain ⟨word, others, tokens_eq, -, -, listed⟩ := modified.exists_next named rfl behind
    rw [tokens_eq]
    intro token at_head
    cases at_head
    apply no_mark
    rcases List.mem_cons.mp listed with same | among
    · exact List.mem_append_left _ (same ▸ known)
    · exact List.mem_append_right _ among
  obtain ⟨_, attributes_eq⟩ := attributed.passes endLine clear
  obtain ⟨words, _, modifiers_eq⟩ := modified.passes endLine named rfl (last _ known) behind
  rw [readMember]
  simp only [attributes_eq, modifiers_eq, bind, Except.bind, Token.not_reads (no_brace _ known),
    Bool.false_eq_true, if_false, named, ne_eq, not_true]
  rw [Skips] at skips
  split at skips
  · rename_i meaning
    obtain ⟨_, skipped⟩ := skips
    simp only [meaning, skipped]
    exact ⟨_, _, rfl⟩
  · rename_i meaning
    obtain ⟨_, skipped⟩ := skips
    simp only [meaning, skipped]
    exact ⟨_, _, rfl⟩
  · rename_i meaning
    obtain ⟨_, _, skipped⟩ := skips words
      ("\n".intercalate ((attributes ++ (modifiers ++ keyword :: behind)).head more).comments)
    simp only [meaning, skipped]
    exact ⟨_, _, rfl⟩
  · exact skips.elim

/-- A member that gives no declaration, in front of `rest`: a function with a body, a protocol or an
extension, a computed field. What stands in the bodies is not looked at. -/
inductive SkippedMember (endLine : Nat) (rest : List Token) : List Token → Prop
  | function {keyword : Token} {header body : List Token} (named : keyword.kind = .name)
      (word : keyword.text ∈ ["func", "init", "deinit", "subscript"])
      (headed : FunctionHeader header) (group : Group openBrace closeBrace body) :
      SkippedMember endLine rest (keyword :: (header ++ body))
  | type {keyword : Token} {header body : List Token} (named : keyword.kind = .name)
      (word : keyword.text ∈ ["protocol", "extension"])
      (headed : ∀ token ∈ header, token.reads openBrace = false)
      (group : Group openBrace closeBrace body) :
      SkippedMember endLine rest (keyword :: (header ++ body))
  | computed {keyword name colon first last : Token} {type inner : List Token} {shape : TypeShape}
      (keyword_named : keyword.kind = .name) (word : keyword.text = "var")
      (named : name.kind = .name) (annotated : colon.reads ":" = true)
      (typed : Takes (readShape endLine type) shape []) (opens : first.isMark openBrace = true)
      (nested : Nested (·.isMark openBrace) (·.isMark closeBrace) inner)
      (closes : last.isMark closeBrace = true) (computes : Clear ["willSet", "didSet"] inner)
      (ends : isAt "," rest = false) :
      SkippedMember endLine rest (keyword :: name :: colon :: (type ++ (first :: inner ++ [last])))

theorem SkippedMember.skips {endLine : Nat} {rest member : List Token}
    (skipped : SkippedMember endLine rest member) :
    ∃ keyword behind, member = keyword :: behind ∧ keyword.kind = .name ∧
      keyword.text ∈ skippedWords ∧ Skips endLine keyword (behind ++ rest) rest := by
  cases skipped with
  | @function keyword header body named word headed group =>
    have meaning : ∀ text ∈ ["func", "init", "deinit", "subscript"],
        Keyword.ofWord? text = some .functionToSkip := by decide
    refine ⟨keyword, _, rfl, named, List.mem_append_left ["protocol", "extension", "var"] word, ?_⟩
    rw [Skips, meaning _ word, List.append_assoc]
    exact headed.takes_body group rest
  | @type keyword header body named word headed group =>
    have meaning : ∀ text ∈ ["protocol", "extension"],
        Keyword.ofWord? text = some .typeToSkip := by decide
    have known : ∀ text ∈ ["protocol", "extension"], text ∈ skippedWords := by decide
    refine ⟨keyword, _, rfl, named, known _ word, ?_⟩
    rw [Skips, meaning _ word, List.append_assoc]
    exact skipType_passes headed group rest
  | @computed keyword name colon first last type inner shape keyword_named word named annotated
      typed opens nested closes computes ends =>
    refine ⟨keyword, _, rfl, keyword_named, by simp [word, skippedWords], ?_⟩
    rw [Skips, word]
    intro words comment
    rw [List.cons_append, List.cons_append, List.append_assoc]
    have at_brace : isAt openBrace (first :: inner ++ [last] ++ rest) = true :=
      Token.reads_of_isMark opens
    have block := skipAccessors_computes endLine opens nested closes computes rest
    exact readBindings_single
      (readBinding_computed named annotated typed at_brace block words comment) ends

/-- Functions, protocols, extensions and computed fields are passed over exactly: the reader finds
no declaration in them and stops at the token behind their last one. -/
theorem skipped_members_passed_over (endLine : Nat) {attributes modifiers member rest : List Token}
    (attributed : Attributes attributes) (modified : Modifiers (textAt member) modifiers)
    (skipped : SkippedMember endLine rest member) :
    ∃ more reading,
      readMember endLine (attributes ++ (modifiers ++ (member ++ rest))) more = .ok reading ∧
        reading.value = [] ∧ reading.rest = rest := by
  obtain ⟨keyword, behind, rfl, named, known, skips⟩ := skipped.skips
  rw [List.cons_append]
  obtain ⟨tail, shorter, read⟩ :=
    readMember_skips attributed modified named known skips (by simp)
  exact ⟨_, _, read, rfl, rfl⟩

/-- `log(done = { ; }) throws -> [Int]`, with a line break in front of `throws`. -/
def logHeader : List Token :=
  lineTokens 1 false [] [.name "log", .mark "(", .name "done", .mark "=", .mark openBrace,
    .mark ";", .mark closeBrace, .mark ")"] ++
  lineTokens 2 true [] [.name "throws", .mark "->", .mark "[", .name "Int", .mark "]"]

theorem logHeader_headed : FunctionHeader logHeader where
  bracketed := by
    refine .token rfl rfl ?_
    refine @Nested.group _ _ _ _ (lineTokens 1 false [] [.name "done", .mark "=", .mark openBrace,
      .mark ";", .mark closeBrace]) _ rfl ?_ rfl (.token rfl rfl (.token rfl rfl ?_))
    · exact .token rfl rfl (.token rfl rfl (.token rfl rfl (.token rfl rfl (.token rfl rfl .nil))))
    · exact @Nested.group _ _ _ _ (lineTokens 2 false [] [.name "Int"]) _ rfl
        (.token rfl rfl .nil) rfl .nil
  outside := by decide +kernel

/-- The body of a function with a declaration and a block in it, and the body of a getter. -/
theorem log_and_total_passed_over :
    let rest := lineTokens 3 true [] [.name "var", .name "x"]
    (∃ more reading,
      readMember 3 (lineTokens 1 true ["Logs."]
            [.mark "@", .name "objc", .mark "(", .name "a", .mark ")"] ++
          (lineTokens 1 false [] [.name "public", .name "class"] ++
            ((Word.name "func").token 1 false [] :: (logHeader ++
              lineTokens 2 false [] [.mark openBrace, .name "case", .name "a", .mark openBrace,
                .mark closeBrace, .mark closeBrace]) ++ rest))) more = .ok reading ∧
        reading.value = [] ∧ reading.rest = rest) ∧
    ∃ more reading,
      readMember 3 ([] ++ ([] ++ (lineTokens 1 true [] [.name "var", .name "total", .mark ":",
          .mark "[", .name "Int", .mark "]", .mark openBrace, .name "get", .mark openBrace,
          .mark closeBrace, .mark closeBrace] ++ rest))) more = .ok reading ∧
        reading.value = [] ∧ reading.rest = rest := by
  intro rest
  constructor
  · apply skipped_members_passed_over 3
    · exact @Attributes.applied _ _ (lineTokens 1 false [] [.mark "(", .name "a", .mark ")"]) _
        rfl rfl
        (@Group.mk _ _ _ _ (lineTokens 1 false [] [.name "a"]) rfl (.token rfl rfl .nil) rfl)
        (by simp [lineTokens, Word.token]) .nil
    · exact .plain rfl (by decide) (.ofType rfl rfl (by decide) .nil)
    · refine .function rfl (by decide) logHeader_headed ?_
      refine @Group.mk _ _ _ _ (lineTokens 2 false [] [.name "case", .name "a", .mark openBrace,
        .mark closeBrace]) rfl (.token rfl rfl (.token rfl rfl ?_)) rfl
      exact @Nested.group _ _ _ _ [] _ rfl .nil rfl .nil
  · apply skipped_members_passed_over 3 .nil .nil
    let type := lineTokens 1 false [] [.mark "[", .name "Int", .mark "]"]
    let inner := lineTokens 1 false [] [.name "get", .mark openBrace, .mark closeBrace]
    have whole : (readShape 3 type).map Reading.rest = .ok [] := by decide +kernel
    obtain ⟨reading, read, rest_eq⟩ := ok_of_map whole
    have typed : Takes (readShape 3 type) reading.value [] := read ▸ takes_ok rfl rest_eq
    refine @SkippedMember.computed 3 rest _ _ _ _ ((Word.mark closeBrace).token 1 false []) type
      inner reading.value rfl rfl rfl rfl typed rfl (.token rfl rfl ?_) rfl
      (clear_word (by decide)) rfl
    exact @Nested.group _ _ _ _ [] _ rfl .nil rfl .nil

end ApiHandbook.Source
