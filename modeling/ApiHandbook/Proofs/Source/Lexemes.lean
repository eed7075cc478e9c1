import Mathlib.Data.List.Forall2
import ApiHandbook.Source.Token
import ApiHandbook.Proofs.Except

/-!
# Gaps and lexemes

Tokenizing loses nothing of a text. What it passes over between two tokens is white space and
comments, and what it keeps of a token is the token as it is written, or a name without the grave
accents around it.
-/
namespace ApiHandbook.Source
open Text

/-! ## What is passed over -/

/-- Whether a character is the first of a mark that opens or closes a block comment. -/
def beginsCommentMark (c : Char) (rest : List Char) : Bool :=
  c = '/' && rest.head? = some '*' || c = '*' && rest.head? = some '/'

/-- The inside of a block comment: whole comments, and characters that begin no mark. A character
at the end is judged together with the mark that closes the comment. -/
inductive CommentBody : List Char → Prop
  | nil : CommentBody []
  | char (c : Char) {rest : List Char} (plain : beginsCommentMark c (rest ++ ['*', '/']) = false)
      (body : CommentBody rest) : CommentBody (c :: rest)
  | comment {inner rest : List Char} (nested : CommentBody inner) (body : CommentBody rest) :
      CommentBody ('/' :: '*' :: inner ++ '*' :: '/' :: rest)

/-- A block comment in which all comments that are opened are closed. -/
def IsBlockComment (text : List Char) : Prop :=
  ∃ body, CommentBody body ∧ text = '/' :: '*' :: body ++ ['*', '/']

/-- A text without tokens. A line comment takes the break at the end of its line with it. -/
inductive Gap : List Char → Prop
  | nil : Gap []
  | space (c : Char) {rest : List Char} (white : isInlineBlank c = true ∨ c = '\n')
      (gap : Gap rest) : Gap (c :: rest)
  | lineComment (body : List Char) {rest : List Char} (line : '\n' ∉ body) (gap : Gap rest) :
      Gap ('/' :: '/' :: body ++ '\n' :: rest)
  | blockComment {comment rest : List Char} (nested : IsBlockComment comment) (gap : Gap rest) :
      Gap (comment ++ rest)

/-- A text without tokens at the end of a source, where a line comment may end with the source. -/
def LastGap (text : List Char) : Prop :=
  Gap text ∨ ∃ gap body, Gap gap ∧ '\n' ∉ body ∧ text = gap ++ '/' :: '/' :: body

theorem Gap.append {first second : List Char} (gap : Gap first) (further : Gap second) :
    Gap (first ++ second) := by
  induction gap with
  | nil => exact further
  | space c white _ ih => exact .space c white ih
  | lineComment body line _ ih =>
    have joined := Gap.lineComment body line ih
    simpa using joined
  | blockComment nested _ ih =>
    have joined := Gap.blockComment nested ih
    simpa using joined

theorem LastGap.behind {gap text : List Char} (passed : Gap gap) (last : LastGap text) :
    LastGap (gap ++ text) := by
  rcases last with further | ⟨further, body, further_gap, line, rfl⟩
  · exact .inl (passed.append further)
  · exact .inr ⟨gap ++ further, body, passed.append further_gap, line,
      (List.append_assoc _ _ _).symm⟩

theorem gap_of_blanks {text : List Char} (blank : ∀ c ∈ text, isInlineBlank c = true) :
    Gap text := by
  induction text with
  | nil => exact .nil
  | cons c rest ih =>
    exact .space c (.inl (blank c List.mem_cons_self))
      (ih fun d member => blank d (List.mem_cons_of_mem _ member))

/-- A text that leads out of a block comment and the `depth` comments around it. -/
inductive LeadsOut : Nat → List Char → Prop
  | last {body : List Char} (inside : CommentBody body) : LeadsOut 0 (body ++ ['*', '/'])
  | inner {depth : Nat} {body rest : List Char} (inside : CommentBody body)
      (outside : LeadsOut depth rest) : LeadsOut (depth + 1) (body ++ '*' :: '/' :: rest)

theorem LeadsOut.char {depth : Nat} {c : Char} {text : List Char} (leads : LeadsOut depth text)
    (plain : beginsCommentMark c text = false) : LeadsOut depth (c :: text) := by
  cases leads with
  | last inside => exact .last (.char c plain inside)
  | @inner depth body rest inside outside =>
    have judged : beginsCommentMark c (body ++ ['*', '/']) = false := by
      cases body <;> exact plain
    exact .inner (.char c judged inside) outside

theorem LeadsOut.comment {depth : Nat} {inner text : List Char} (nested : CommentBody inner)
    (leads : LeadsOut depth text) :
    LeadsOut depth ('/' :: '*' :: inner ++ '*' :: '/' :: text) := by
  cases leads with
  | last inside =>
    have joined := LeadsOut.last (nested.comment inside)
    simpa using joined
  | inner inside outside =>
    have joined := LeadsOut.inner (nested.comment inside) outside
    simpa using joined

theorem leadsOut_of_blockCommentLength {depth length : Nat} {text : List Char}
    (closed : blockCommentLength depth text = some length) :
    LeadsOut depth (text.take length) := by
  fun_induction blockCommentLength depth text generalizing length with
  | case1 depth rest ih =>
    obtain ⟨behind, found, rfl⟩ := Option.map_eq_some_iff.mp closed
    generalize taken : rest.take behind = inside
    have leads := ih found
    rw [taken] at leads
    cases leads with
    | inner nested outside =>
      rw [List.take_succ_cons, List.take_succ_cons, taken]
      exact outside.comment nested
  | case2 rest =>
    cases closed
    exact .last .nil
  | case3 rest depth ih =>
    obtain ⟨behind, found, rfl⟩ := Option.map_eq_some_iff.mp closed
    exact .inner .nil (ih found)
  | case4 depth c rest no_open no_close ih =>
    obtain ⟨behind, found, rfl⟩ := Option.map_eq_some_iff.mp closed
    rw [List.take_succ_cons]
    apply (ih found).char
    cases rest with
    | nil => simp [beginsCommentMark]
    | cons d more =>
      cases behind with
      | zero => simp [beginsCommentMark]
      | succ behind =>
        simp only [beginsCommentMark, List.take_succ_cons, List.head?_cons, Option.some.injEq,
          Bool.or_eq_false_iff, Bool.and_eq_false_imp, decide_eq_true_eq, decide_eq_false_iff_not]
        constructor
        · rintro rfl rfl
          exact no_open more rfl rfl
        · rintro rfl rfl
          exact no_close more rfl rfl
  | case5 => cases closed

theorem isBlockComment_of_length {length : Nat} {text : List Char}
    (closed : blockCommentLength 0 text = some length) :
    IsBlockComment ('/' :: '*' :: text.take length) := by
  generalize taken : text.take length = inside
  have leads := leadsOut_of_blockCommentLength closed
  rw [taken] at leads
  cases leads with
  | last body => exact ⟨_, body, rfl⟩

/-! ## What is kept -/

/-- A name as it is written without grave accents. -/
def isIdentifier : List Char → Bool
  | [] => false
  | c :: rest => isNameStart c && rest.all isNameChar

theorem isIdentifier_isNameChar {word : List Char} (identifier : isIdentifier word = true) :
    ∀ c ∈ word, isNameChar c = true := by
  cases word with
  | nil => cases identifier
  | cons first rest =>
    rw [isIdentifier, Bool.and_eq_true, List.all_eq_true] at identifier
    intro c member
    rcases List.mem_cons.mp member with rfl | later
    · rw [isNameChar, identifier.1, Bool.true_or]
    · exact identifier.2 c later

/-- The text that stands for a token in a source. -/
def IsLexeme (token : Token) (lexeme : List Char) : Prop :=
  lexeme = token.text.toList ∨
    token.kind = .name ∧ lexeme = '\x60' :: token.text.toList ++ ['\x60']

theorem nameText_of_identifier {word : List Char} (identifier : isIdentifier word = true) :
    (nameText word).toList = word := by
  have kept : ∀ c ∈ word, decide (c ≠ '\x60') = true := by
    intro c member
    rw [decide_eq_true_eq]
    rintro rfl
    have accent := isIdentifier_isNameChar identifier _ member
    revert accent
    decide
  rw [nameText, String.toList_ofList, List.filter_eq_self.mpr kept]

theorem take_takeWhile {α : Type} (test : α → Bool) (list : List α) :
    list.take (list.takeWhile test).length = list.takeWhile test :=
  (List.prefix_iff_eq_take.mp (List.takeWhile_prefix test)).symm

theorem drop_takeWhile {α : Type} (test : α → Bool) (list : List α) :
    list.drop (list.takeWhile test).length = list.dropWhile test := by
  conv => lhs; arg 2; rw [← List.takeWhile_append_dropWhile (p := test) (l := list)]
  exact List.drop_left

theorem nameText_between_accents (word : List Char) :
    nameText ('\x60' :: word ++ ['\x60']) = nameText word := by
  simp [nameText]

/-- A name stands alone or between grave accents. -/
theorem nameLength_identifier {c : Char} {rest : List Char} {length : Nat}
    (found : nameLength c rest = some length) :
    ∃ word, isIdentifier word = true ∧
      (c :: rest.take length = word ∨ c :: rest.take length = '\x60' :: word ++ ['\x60']) := by
  unfold nameLength at found
  split at found
  · rename_i start
    cases found
    refine ⟨c :: rest.takeWhile isNameChar, ?_, .inl (by rw [take_takeWhile])⟩
    rw [isIdentifier, start, Bool.true_and]
    exact List.all_takeWhile
  · split at found
    · rename_i accent
      simp only [Bool.and_eq_true, decide_eq_true_eq, Option.any_eq_true] at accent
      obtain ⟨rfl, first, front, start⟩ := accent
      dsimp only at found
      split at found
      · rename_i closing
        cases found
        simp only [drop_takeWhile, Option.any_eq_true, decide_eq_true_eq] at closing
        obtain ⟨mark, behind, rfl⟩ := closing
        refine ⟨rest.takeWhile isNameChar, ?_, .inr ?_⟩
        · cases rest with
          | nil => cases front
          | cons next more =>
            cases front
            have char : isNameChar first = true := by rw [isNameChar, start, Bool.true_or]
            rw [List.takeWhile_cons_of_pos char, isIdentifier, start, Bool.true_and]
            exact List.all_takeWhile
        · obtain ⟨more, behind⟩ := List.head?_eq_some_iff.mp behind
          have split : rest = rest.takeWhile isNameChar ++ '\x60' :: more := by
            rw [← behind, List.takeWhile_append_dropWhile]
          have taken : rest.take ((rest.takeWhile isNameChar).length + 1) =
              rest.takeWhile isNameChar ++ ['\x60'] := by
            rw [List.take_add_one, take_takeWhile]
            congr 1
            conv => lhs; arg 1; arg 1; rw [split]
            simp
          rw [taken]
          rfl
      · cases found
    · cases found

/-! ## One piece after another -/

/-- What a piece of a kind looks like in front of `rest`. -/
def PieceKind.Shows (raw rest : List Char) : PieceKind → Prop
  | .blank => ∀ c ∈ raw, isInlineBlank c = true
  | .lineBreak => raw = ['\n']
  | .lineComment => ∃ body, raw = '/' :: '/' :: body ∧ '\n' ∉ body ∧
      (rest = [] ∨ ∃ more, rest = '\n' :: more)
  | .blockComment => IsBlockComment raw
  | .name => ∃ word, isIdentifier word = true ∧
      (raw = word ∨ raw = '\x60' :: word ++ ['\x60'])
  | .number | .mark | .literal _ => True

theorem wordExtent?_shows {c : Char} {rest : List Char} {extent : Extent}
    (found : wordExtent? c rest = some extent) :
    extent.kind.Shows (c :: rest.take extent.more) (rest.drop extent.more) := by
  simp only [wordExtent?, Option.orElse_eq_orElse, Option.orElse_eq_or, Option.or_eq_some_iff,
    Option.map_eq_some_iff] at found
  rcases found with ⟨length, _, rfl⟩ | ⟨_, ⟨length, name, rfl⟩ | ⟨_, length, _, rfl⟩⟩
  · trivial
  · exact nameLength_identifier name
  · trivial

theorem frontExtent_shows {line : Nat} {c : Char} {rest : List Char} {extent : Extent}
    (success : frontExtent line c rest = .ok extent) :
    extent.kind.Shows (c :: rest.take extent.more) (rest.drop extent.more) := by
  unfold frontExtent at success
  split at success
  · rename_i opening
    simp only [Bool.and_eq_true, decide_eq_true_eq] at opening
    obtain ⟨rfl, star⟩ := opening
    obtain ⟨inside, rfl⟩ := List.head?_eq_some_iff.mp star
    split at success
    · rename_i length closed
      cases success
      rw [Nat.add_comm, List.take_succ_cons]
      exact isBlockComment_of_length closed
    · cases success
  · split at success
    · obtain ⟨literal, _, made⟩ := ok_of_bind success
      cases made
      trivial
    · split at success
      · rename_i blank
        cases success
        intro d member
        rw [take_takeWhile] at member
        rcases List.mem_cons.mp member with rfl | later
        · exact blank
        · exact List.all_eq_true.mp List.all_takeWhile d later
      · split at success
        · rename_i lineBreak
          cases success
          rw [lineBreak]
          rfl
        · split at success
          · rename_i slashes
            cases success
            simp only [Bool.and_eq_true, decide_eq_true_eq] at slashes
            obtain ⟨rfl, slash⟩ := slashes
            obtain ⟨inside, rfl⟩ := List.head?_eq_some_iff.mp slash
            rw [take_takeWhile, drop_takeWhile]
            refine ⟨inside.takeWhile (· ≠ '\n'), rfl, ?_, ?_⟩
            · intro lineBreak
              have kept := List.all_eq_true.mp List.all_takeWhile '\n' lineBreak
              cases kept
            · change inside.dropWhile (· ≠ '\n') = [] ∨ _
              cases behind : inside.dropWhile (· ≠ '\n') with
              | nil => exact .inl rfl
              | cons d more =>
                have stopped := List.head?_dropWhile_not (· ≠ '\n') inside
                rw [behind] at stopped
                have lineBreak : d = '\n' := by simpa using stopped
                subst lineBreak
                exact .inr ⟨more, behind⟩
          · split at success
            · rename_i found
              cases success
              exact wordExtent?_shows found
            · cases success

theorem piecesFrom_cons {line : Nat} {c : Char} {rest : List Char} {found : List Piece}
    (success : piecesFrom line (c :: rest) = .ok found) :
    ∃ extent others, frontExtent line c rest = .ok extent ∧
      piecesFrom (line + extent.breaks) (rest.drop extent.more) = .ok others ∧
      found = ⟨extent.kind, c :: rest.take extent.more, extent.breaks⟩ :: others := by
  rw [piecesFrom] at success
  obtain ⟨extent, front, success⟩ := ok_of_bind success
  obtain ⟨others, behind, made⟩ := ok_of_bind success
  cases made
  exact ⟨extent, others, front, behind, rfl⟩

theorem piecesFrom_lineBreak {line : Nat} {rest : List Char} {found : List Piece}
    (success : piecesFrom line ('\n' :: rest) = .ok found) :
    ∃ others, piecesFrom (line + 1) rest = .ok others ∧
      found = ⟨.lineBreak, ['\n'], 1⟩ :: others := by
  obtain ⟨extent, others, front, behind, rfl⟩ := piecesFrom_cons success
  cases front
  exact ⟨others, behind, rfl⟩

/-- A gap and a lexeme for each token, and a gap behind the last. -/
inductive Spelled : List Token → List Char → Prop
  | last {gap : List Char} (passed : LastGap gap) : Spelled [] gap
  | token {token : Token} {tokens : List Token} {gap lexeme rest : List Char} (passed : Gap gap)
      (kept : IsLexeme token lexeme) (nonempty : lexeme ≠ []) (behind : Spelled tokens rest) :
      Spelled (token :: tokens) (gap ++ (lexeme ++ rest))

theorem Spelled.behindGap {tokens : List Token} {gap text : List Char} (passed : Gap gap)
    (spelled : Spelled tokens text) : Spelled tokens (gap ++ text) := by
  cases spelled with
  | last last => exact .last (last.behind passed)
  | token further kept nonempty behind =>
    rw [← List.append_assoc]
    exact .token (passed.append further) kept nonempty behind

/-- A line comment is taken together with the line break that follows it, so the induction is on
the length of the text. -/
theorem tokensFrom_spelled {line : Nat} {text : List Char} {found : List Piece}
    (success : piecesFrom line text = .ok found) (startsLine : Bool) (comments : List String) :
    Spelled (tokensFrom line startsLine comments found).tokens text := by
  induction length_eq : text.length using Nat.strongRecOn
    generalizing line text found startsLine comments with
  | _ size ih =>
    cases text with
    | nil =>
      rw [piecesFrom] at success
      cases success
      exact .last (.inl .nil)
    | cons c rest =>
      obtain ⟨⟨kind, more, breaks⟩, others, front, behind, rfl⟩ := piecesFrom_cons success
      have shows := frontExtent_shows front
      dsimp only at shows behind
      have shorter : (rest.drop more).length < size := by
        rw [← length_eq, List.length_drop, List.length_cons]
        omega
      have later : ∀ startsLine comments,
          Spelled (tokensFrom (line + breaks) startsLine comments others).tokens
            (rest.drop more) :=
        fun startsLine comments => ih _ shorter behind startsLine comments rfl
      have split : c :: rest = (c :: rest.take more) ++ rest.drop more := by simp
      have nonempty : c :: rest.take more ≠ [] := List.cons_ne_nil _ _
      generalize c :: rest.take more = raw at shows split nonempty ⊢
      rw [split]
      have keep : ∀ token, IsLexeme token raw →
          Spelled (token :: (tokensFrom (line + breaks) false [] others).tokens)
            (raw ++ rest.drop more) :=
        fun token lexeme => .token .nil lexeme nonempty (later false [])
      cases kind with
      | blank => exact (later _ _).behindGap (gap_of_blanks shows)
      | lineBreak => exact shows ▸ (later _ _).behindGap (.space '\n' (.inr rfl) .nil)
      | blockComment =>
        have comment := Gap.blockComment shows .nil
        rw [List.append_nil] at comment
        exact (later _ _).behindGap comment
      | lineComment =>
        obtain ⟨body, rfl, inLine, ends | ⟨further, continues⟩⟩ := shows
        · rw [ends, piecesFrom] at behind
          cases behind
          rw [ends]
          exact .last (.inr ⟨[], body, .nil, inLine, by simp⟩)
        · rw [continues] at behind shorter ⊢
          obtain ⟨others, onward, rfl⟩ := piecesFrom_lineBreak behind
          have spelled := ih _ (Nat.lt_of_succ_lt shorter) onward true
            (if startsLine then comments ++ [commentText ('/' :: '/' :: body)] else comments) rfl
          have joined := spelled.behindGap (.lineComment body inLine .nil)
          rw [List.append_assoc] at joined
          exact joined
      | number => exact keep _ (.inl (by simp))
      | mark => exact keep _ (.inl (by simp))
      | literal segments => exact keep _ (.inl (by simp))
      | name =>
        obtain ⟨word, identifier, rfl | rfl⟩ := shows
        · exact keep _ (.inl (nameText_of_identifier identifier).symm)
        · refine keep _ (.inr ⟨rfl, ?_⟩)
          rw [nameText_between_accents, nameText_of_identifier identifier]

theorem Spelled.parts {tokens : List Token} {text : List Char} (spelled : Spelled tokens text) :
    ∃ (parts : List (List Char × List Char)) (last : List Char),
      text = parts.flatMap (fun part => part.1 ++ part.2) ++ last ∧
      List.Forall₂ (fun part token => Gap part.1 ∧ IsLexeme token part.2 ∧ part.2 ≠ [])
        parts tokens ∧
      LastGap last := by
  induction spelled with
  | @last gap passed => exact ⟨[], gap, rfl, .nil, passed⟩
  | @token token tokens gap lexeme rest passed kept nonempty _ ih =>
    obtain ⟨parts, last, rfl, fits, ends⟩ := ih
    exact ⟨(gap, lexeme) :: parts, last, by simp, .cons ⟨passed, kept, nonempty⟩ fits, ends⟩

/-- Nothing is lost: a text that can be tokenized consists of one gap and one lexeme for each of
its tokens, in order, and a last gap. Gaps are white space, line comments up to the end of their
lines and nested block comments; lexemes are not empty. The end of the text is kept apart from the
tokens, so it stands behind them once. -/
theorem tokenize_loses_nothing {text : List Char} {stream : TokenStream}
    (success : tokenize text = .ok stream) :
    ∃ (parts : List (List Char × List Char)) (last : List Char),
      text = parts.flatMap (fun part => part.1 ++ part.2) ++ last ∧
      List.Forall₂ (fun part token => Gap part.1 ∧ IsLexeme token part.2 ∧ part.2 ≠ [])
        parts stream.tokens ∧
      LastGap last := by
  obtain ⟨found, cut, made⟩ := ok_of_bind success
  cases made
  exact (tokensFrom_spelled cut true []).parts

/-- A nested comment, a name between grave accents, a literal inside the splice of another one and
a comment that ends with the text. -/
theorem nested_comment_and_splice_spelled :
    let text := "/* a /* b */ */ let \x60x\x60 = \"s\\(f(\"q\"))\" // end".toList
    ∃ stream, tokenize text = .ok stream ∧
      stream.tokens.map (·.text) = ["let", "x", "=", "\"s\\(f(\"q\"))\""] ∧
      ∃ (parts : List (List Char × List Char)) (last : List Char),
        text = parts.flatMap (fun part => part.1 ++ part.2) ++ last ∧
        List.Forall₂ (fun part token => Gap part.1 ∧ IsLexeme token part.2 ∧ part.2 ≠ [])
          parts stream.tokens ∧
        LastGap last := by
  intro text
  have texts : (tokenize text).toOption.map (·.tokens.map (·.text)) =
      some ["let", "x", "=", "\"s\\(f(\"q\"))\""] := by decide +kernel
  cases success : tokenize text with
  | error fault =>
    rw [success] at texts
    cases texts
  | ok stream =>
    rw [success] at texts
    exact ⟨stream, rfl, Option.some.inj texts, tokenize_loses_nothing success⟩

end ApiHandbook.Source
