import ApiHandbook.Proofs.Source.PrintedReading

/-!
# Printed declarations are read back

Printing canonical declarations and reading the text gives the same declarations, with the line
that each of them begins on.
-/
namespace ApiHandbook.Source

/-! ## Types with members -/

/-- A conformance is a name in front of a comma or an opening brace. -/
theorem conformanceLength_name (line : Nat) {name close : String} (rest : List Token)
    (word : isWord name = true) (other : name ≠ "where") (closing : close ∈ [",", openBrace]) :
    conformanceLength 0 (inLine line [.name name, .mark close] rest) = 1 := by
  have behind : conformanceLength 0 (inLine line [.mark close] rest) = 0 := by
    have stop : close = "," ∨ close = openBrace := by simpa using closing
    rcases stop with rfl | rfl <;> simp [conformanceLength]
  have apart := ne_of_isWord word
  rw [inLine_cons, conformanceLength, behind]
  simp [apart "," (by decide), apart openBrace (by decide), other, apart "<" (by decide),
    apart ">" (by decide)]

theorem readConformances_names (line : Nat) {names : List String} (rest : List Token)
    (nonempty : names ≠ []) (conforms : ∀ name ∈ names, isWord name = true ∧ name ≠ "where") :
    Passes (.ok (readConformances (inLine line (listed (names.map fun name => [Word.name name]))
        (inLine line [.mark openBrace] rest))))
      names (inLine line [.mark openBrace] rest) := by
  induction names with
  | nil => exact absurd rfl nonempty
  | cons name names ih =>
    obtain ⟨word, other⟩ := conforms name List.mem_cons_self
    cases names with
    | nil =>
      let tokens := inLine line [.name name, .mark openBrace] rest
      have length_eq : conformanceLength 0 tokens = 1 :=
        conformanceLength_name line rest word other (by decide)
      have no_comma : accept? "," (tokens.drop (conformanceLength 0 tokens)) = none := by
        rw [length_eq]
        rfl
      change Passes (.ok (readConformances tokens)) _ _
      rw [readConformances]
      simp only
      rw [no_comma]
      simp only [length_eq]
      exact ⟨_, rfl⟩
    | cons next names =>
      obtain ⟨later_tail, later⟩ := ih (List.cons_ne_nil _ _) fun other member =>
        conforms other (List.mem_cons_of_mem _ member)
      let behind := inLine line (listed ((next :: names).map fun name => [Word.name name]))
        (inLine line [.mark openBrace] rest)
      let tokens := inLine line [.name name, .mark ","] behind
      have further : readConformances behind = ⟨next :: names, _, later_tail⟩ :=
        Except.ok.inj later
      have length_eq : conformanceLength 0 tokens = 1 :=
        conformanceLength_name line behind word other (by decide)
      have comma : ∃ tail shorter, accept? "," (tokens.drop (conformanceLength 0 tokens)) =
          some ⟨(), behind, tail, shorter⟩ := by
        rw [length_eq]
        exact ⟨_, _, rfl⟩
      obtain ⟨tail, shorter, comma⟩ := comma
      have tokens_eq : inLine line (listed ((name :: next :: names).map fun name =>
          [Word.name name])) (inLine line [.mark openBrace] rest) = tokens := by
        rw [List.map_cons, List.map_cons, listed_cons_cons, inLine_append, inLine_append]
        rfl
      rw [tokens_eq, readConformances]
      simp only
      rw [comma]
      simp only [length_eq, further]
      exact ⟨_, rfl⟩

theorem readTypeHeader_canonical (endLine line : Nat) (name : String) {conformances : List String}
    (rest : List Token)
    (conforms : ∀ other ∈ conformances, isWord other = true ∧ other ≠ "where") :
    Takes (readTypeHeader endLine (inLine line (.name name :: conformanceWords conformances)
        (inLine line [.mark openBrace] rest)))
      (name, conformances) (inLine line [.mark openBrace] rest) := by
  have no_constraint : isAt "where" (inLine line [.mark openBrace] rest) = false := rfl
  by_cases none : conformances = []
  · have no_parameters : isAt "<" (inLine line [.mark openBrace] rest) = false := rfl
    have no_colon : accept? ":" (inLine line [.mark openBrace] rest) = Option.none := rfl
    rw [conformanceWords, if_pos none, none, readTypeHeader, inLine_cons, inLine_nil, expectName,
      acceptName?_name]
    simp only [bind, Except.bind, Reading.one, no_parameters, Bool.false_eq_true, if_false, pure,
      Except.pure, Advance.stay, no_colon, no_constraint]
    exact ⟨_, _, rfl⟩
  · obtain ⟨tail, names⟩ := readConformances_names line rest none conforms
    have found := Except.ok.inj names
    have no_parameters : ∀ more, isAt "<" ((Word.mark ":").token line false [] :: more) = false :=
      fun _ => rfl
    have no_constraint_behind : isAt "where" (readConformances (inLine line
        (listed (conformances.map fun other => [Word.name other]))
          (inLine line [.mark openBrace] rest))).rest = false := by
      rw [found]
      rfl
    rw [conformanceWords, if_neg none, inLine_cons, inLine_cons, readTypeHeader, expectName,
      acceptName?_name]
    simp only [bind, Except.bind, Reading.one, no_parameters, Bool.false_eq_true, if_false, pure,
      Except.pure, Advance.stay, accept?_mark, Advance.behind, no_constraint_behind]
    exact takes_ok (congrArg (name, ·.value) found) (congrArg (·.rest) found)

/-! ## Members -/

theorem skipAttributes_none (endLine : Nat) {tokens : List Token} (clear : Clear ["@"] tokens) :
    skipAttributes endLine tokens = .ok (.stay tokens ()) := by
  rw [skipAttributes, clear.accept? (by decide)]

theorem isAtModifier_name {modifier next : String} {line nextLine : Nat}
    {startsLine nextStarts : Bool} {comments nextComments : List String} {rest : List Token}
    (member : modifier ∈ modifierWords) :
    isAtModifier ((Word.name modifier).token line startsLine comments ::
      (Word.name next).token nextLine nextStarts nextComments :: rest) = true := by
  have no_class : modifier ≠ "class" := by
    rintro rfl
    exact absurd member (by decide)
  simp [isAtModifier, no_class, member]

theorem isAtModifier_keyword {keyword : String} {line : Nat} {startsLine : Bool}
    {comments : List String} {rest : List Token} (last : keyword ∉ "class" :: modifierWords) :
    isAtModifier ((Word.name keyword).token line startsLine comments :: rest) = false := by
  obtain ⟨no_class, no_modifier⟩ : keyword ≠ "class" ∧ keyword ∉ modifierWords := by
    simpa using last
  simp [isAtModifier, no_class, no_modifier]

/-- The modifiers in front of a keyword, which is none of them. -/
theorem readModifiers_words (endLine line : Nat) (startsLine : Bool) (comments : List String)
    {modifiers : List String} {keyword : String} (rest : List Token)
    (modified : ∀ modifier ∈ modifiers, modifier ∈ modifierWords) (key : isWord keyword = true)
    (last : keyword ∉ "class" :: modifierWords) :
    ∃ starts leading, Passes (readModifiers endLine
        (lineTokens line startsLine comments ((modifiers ++ [keyword]).map .name) ++ rest))
      modifiers ((Word.name keyword).token line starts leading :: rest) := by
  induction modifiers generalizing startsLine comments with
  | nil =>
    refine ⟨startsLine, comments, ?_⟩
    change Passes (readModifiers endLine
      ((Word.name keyword).token line startsLine comments :: rest)) _ _
    rw [readModifiers, isAtModifier_keyword last]
    exact ⟨_, rfl⟩
  | cons modifier modifiers ih =>
    obtain ⟨starts, leading, later⟩ := ih false [] fun other member =>
      modified other (List.mem_cons_of_mem _ member)
    refine ⟨starts, leading, ?_⟩
    -- A word follows, so the modifier has no argument in parentheses.
    obtain ⟨next, others, next_eq, word⟩ : ∃ next others,
        modifiers ++ [keyword] = next :: others ∧ isWord next = true := by
      cases modifiers with
      | nil => exact ⟨keyword, [], rfl, key⟩
      | cons next others =>
        exact ⟨next, others ++ [keyword], rfl,
          isWord_of_mem_modifierWords (modified next (by simp))⟩
    have tokens_eq : lineTokens line startsLine comments
          ((modifier :: modifiers ++ [keyword]).map .name) ++ rest =
        (Word.name modifier).token line startsLine comments ::
          (lineTokens line false [] ((modifiers ++ [keyword]).map .name) ++ rest) := rfl
    rw [tokens_eq]
    rw [next_eq] at later ⊢
    obtain ⟨tail, further⟩ := later
    have no_argument : isAt "(" (lineTokens line false [] ((next :: others).map .name) ++ rest) =
        false := by
      change ((Word.name next).token line false []).reads "(" = false
      rw [Word.name_reads, decide_eq_false (ne_of_isWord word "(" (by decide))]
    have modifies : isAtModifier ((Word.name modifier).token line startsLine comments ::
        (lineTokens line false [] ((next :: others).map .name) ++ rest)) = true :=
      isAtModifier_name (modified modifier List.mem_cons_self)
    rw [readModifiers, modifies, acceptName?_name]
    simp only [if_true, Reading.one, no_argument, Bool.false_eq_true, if_false, further, bind,
      Except.bind]
    exact ⟨_, rfl⟩

theorem intercalate_commentParts (comment : String) :
    "\n".intercalate (commentParts comment) = comment := by
  unfold commentParts
  split
  · rename_i empty
    exact empty.symm
  · rw [← String.toList_inj, String.toList_intercalate, List.map_map]
    have kept : String.toList ∘ String.ofList = id := by
      funext text
      exact String.toList_ofList
    rw [kept, List.map_id]
    exact List.intercalate_splitOn '\n'

/-- The tokens of a line up to its keyword. -/
def openingTokens (line : Nat) (comment : String) (modifiers : List String) (keyword : String)
    (behind : List Token) : List Token :=
  lineTokens line true (commentParts comment) ((modifiers ++ [keyword]).map .name) ++ behind

theorem openingTokens_ne_nil {line : Nat} {comment : String} {modifiers : List String}
    {keyword : String} {behind : List Token} :
    openingTokens line comment modifiers keyword behind ≠ [] := by
  cases modifiers <;> simp [openingTokens, lineTokens]

/-- A line begins with its comment, no attribute, and the modifiers in front of the keyword. -/
theorem openingTokens_read (endLine line : Nat) (comment : String) {modifiers : List String}
    {keyword : String} (behind : List Token)
    (modified : ∀ modifier ∈ modifiers, modifier ∈ modifierWords) (key : isWord keyword = true)
    (last : keyword ∉ "class" :: modifierWords)
    (more : openingTokens line comment modifiers keyword behind ≠ []) :
    "\n".intercalate ((openingTokens line comment modifiers keyword behind).head more).comments =
        comment ∧
      skipAttributes endLine (openingTokens line comment modifiers keyword behind) =
        .ok (.stay _ ()) ∧
      ∃ starts leading,
        Passes (readModifiers endLine (openingTokens line comment modifiers keyword behind))
          modifiers ((Word.name keyword).token line starts leading :: behind) := by
  obtain ⟨first, others, first_eq, word⟩ : ∃ first others,
      modifiers ++ [keyword] = first :: others ∧ isWord first = true := by
    cases modifiers with
    | nil => exact ⟨keyword, [], rfl, key⟩
    | cons first others =>
      exact ⟨first, others ++ [keyword], rfl,
        isWord_of_mem_modifierWords (modified first (by simp))⟩
  refine ⟨?_, ?_, readModifiers_words endLine line true _ behind modified key last⟩
  · simp only [openingTokens, first_eq]
    exact intercalate_commentParts comment
  · apply skipAttributes_none
    rw [openingTokens, first_eq]
    exact clear_word (by simpa using ne_of_isWord word "@" (by decide))

theorem readMember_type (endLine line : Nat) (comment : String) {modifiers : List String}
    {kind : DeclarationKind} {declaration : Declaration} {behind rest : List Token}
    (modified : ∀ modifier ∈ modifiers, modifier ∈ modifierWords)
    (type : kind = .record ∨ kind = .sum)
    (taken : Takes (readType endLine kind modifiers comment line behind) declaration rest) :
    Takes (readMember endLine (openingTokens line comment modifiers (typeKeyword kind) behind)
      openingTokens_ne_nil) [declaration] rest := by
  have key : isWord (typeKeyword kind) = true := by rcases type with rfl | rfl <;> decide
  have last : typeKeyword kind ∉ "class" :: modifierWords := by
    rcases type with rfl | rfl <;> decide
  obtain ⟨comment_eq, attributes, starts, leading, modifiers_tail, opening⟩ :=
    openingTokens_read endLine line comment behind modified key last openingTokens_ne_nil
  obtain ⟨tail, shorter, taken⟩ := taken
  rw [readMember]
  simp only [comment_eq, attributes, bind, Except.bind, Advance.stay, opening]
  rcases type with rfl | rfl
  · have meaning : Keyword.ofWord? (typeKeyword .record) = some .record := rfl
    have no_brace : ¬ typeKeyword .record = openBrace := by decide
    simp only [Word.name_reads, no_brace, decide_false, Bool.false_eq_true, if_false,
      Word.token_kind, Word.name_kind, ne_eq, not_true, Word.token_text, Word.name_text, meaning,
      Word.token_line, taken]
    exact ⟨_, _, rfl⟩
  · have meaning : Keyword.ofWord? (typeKeyword .sum) = some .sum := rfl
    have no_brace : ¬ typeKeyword .sum = openBrace := by decide
    simp only [Word.name_reads, no_brace, decide_false, Bool.false_eq_true, if_false,
      Word.token_kind, Word.name_kind, ne_eq, not_true, Word.token_text, Word.name_text, meaning,
      Word.token_line, taken]
    exact ⟨_, _, rfl⟩

theorem readMember_binding (endLine line : Nat) (comment : String) {modifiers : List String}
    {declarations : List Declaration} {behind rest : List Token}
    (modified : ∀ modifier ∈ modifiers, modifier ∈ modifierWords)
    (taken : Takes (readBindings endLine modifiers comment behind) declarations rest) :
    Takes (readMember endLine (openingTokens line comment modifiers "let" behind)
      openingTokens_ne_nil) declarations rest := by
  obtain ⟨comment_eq, attributes, starts, leading, modifiers_tail, opening⟩ :=
    openingTokens_read endLine line comment behind modified (by decide : isWord "let" = true)
      (by decide) openingTokens_ne_nil
  obtain ⟨tail, shorter, taken⟩ := taken
  have meaning : Keyword.ofWord? "let" = some .binding := rfl
  have no_brace : ¬ "let" = openBrace := by decide
  rw [readMember]
  simp only [comment_eq, attributes, bind, Except.bind, Advance.stay, opening, Word.name_reads,
    no_brace, decide_false, Bool.false_eq_true, if_false, Word.token_kind, Word.name_kind, ne_eq,
    not_true, Word.token_text, Word.name_text, meaning, taken]
  exact ⟨_, _, rfl⟩

theorem readMember_case (endLine line : Nat) (comment : String) {declarations : List Declaration}
    {behind rest : List Token}
    (taken : Takes (readCases endLine comment behind) declarations rest) :
    Takes (readMember endLine (openingTokens line comment [] "case" behind) openingTokens_ne_nil)
      declarations rest := by
  obtain ⟨comment_eq, attributes, starts, leading, modifiers_tail, opening⟩ :=
    openingTokens_read endLine line comment behind (List.forall_mem_nil _)
      (by decide : isWord "case" = true) (by decide) openingTokens_ne_nil
  obtain ⟨tail, shorter, taken⟩ := taken
  have meaning : Keyword.ofWord? "case" = some .case := rfl
  have no_brace : ¬ "case" = openBrace := by decide
  rw [readMember]
  simp only [comment_eq, attributes, bind, Except.bind, Advance.stay, opening, Word.name_reads,
    no_brace, decide_false, Bool.false_eq_true, if_false, Word.token_kind, Word.name_kind, ne_eq,
    not_true, Word.token_text, Word.name_text, meaning, taken]
  exact ⟨_, _, rfl⟩

/-! ## Whole declarations -/

theorem lineTokens_opening (line : Nat) (comment : String) (modifiers : List String)
    (keyword name : String) (words : List Word) (rest : List Token) :
    lineTokens line true (commentParts comment)
        ((modifiers ++ [keyword, name]).map .name ++ words) ++ rest =
      openingTokens line comment modifiers keyword (inLine line (.name name :: words) rest) := by
  have words_eq : (modifiers ++ [keyword, name]).map Word.name ++ words =
      (modifiers ++ [keyword]).map Word.name ++ (.name name :: words) := by simp
  rw [words_eq, lineTokens_append _ _ _ (by simp), List.append_assoc]
  rfl

theorem readType_canonical (endLine line : Nat) (comment : String) {kind : DeclarationKind}
    {modifiers conformances : List String} (name : String) {children : List Declaration}
    {body rest : List Token}
    (conforms : ∀ other ∈ conformances, isWord other = true ∧ other ≠ "where")
    (members : Takes (readBody endLine body) children rest) :
    Takes (readType endLine kind modifiers comment line
        (inLine line (.name name :: (conformanceWords conformances ++ [.mark openBrace])) body))
      (.node { kind, name, conformances, modifiers, comment, line := some line } children)
      rest := by
  obtain ⟨tail, shorter, header⟩ :=
    readTypeHeader_canonical endLine line name body conforms
  obtain ⟨body_tail, body_shorter, members⟩ := members
  have brace : expect endLine openBrace (inLine line [.mark openBrace] body) =
      .ok (.one () _ body) := rfl
  rw [← List.cons_append, inLine_append, readType]
  simp only [header, bind, Except.bind, brace, Reading.one, members]
  exact ⟨_, _, rfl⟩

theorem readMember_canonical (endLine line : Nat) {heading : Heading} {children : List Declaration}
    {rest : List Token} (canonical : heading.Canonical)
    (leaf : heading.isType = true ∨ children = []) (boundary : Boundary rest)
    (inner : ∀ line last rest, Takes (readBody endLine (allTokens line children ++
      (Word.mark closeBrace).token last true [] :: rest)) (allPlaced line children) rest) :
    ∀ more, Takes
      (readMember endLine ((Declaration.node heading children).tokens line ++ rest) more)
      [(Declaration.node heading children).placed line] rest := by
  -- Each line is put in the form of its opening and what follows the keyword.
  cases canonical with
  | type kind word conforms modified tidy bare =>
    have placed_eq : (Declaration.node heading children).placed line =
        .node { kind := heading.kind, name := heading.name, conformances := heading.conformances,
                modifiers := heading.modifiers, comment := heading.comment,
                line := some ↑(line + (commentParts heading.comment).length) }
          (allPlaced (line + (commentParts heading.comment).length + 1) children) := by
      simp [Declaration.placed, bare]
    rw [tokens_type line kind, typeWords, List.append_assoc, lineTokens_opening, placed_eq]
    intro more
    apply readMember_type endLine _ heading.comment modified kind
    apply readType_canonical endLine _ heading.comment heading.name conforms
    rw [List.append_assoc, List.singleton_append]
    exact inner _ _ rest
  | field kind word modified typed valued tidy bare =>
    have none : children = [] := leaf.resolve_left (by simp [Heading.isType, kind])
    have placed_eq : (Declaration.node heading children).placed line =
        .node { kind := .field, name := heading.name, modifiers := heading.modifiers,
                comment := heading.comment, shape := heading.shape,
                initializer := heading.initializer,
                line := some ↑(line + (commentParts heading.comment).length) } [] := by
      simp [Declaration.placed, allPlaced, bare, kind, none]
    have tokens_eq : (Declaration.node heading children).tokens line =
        lineTokens (line + (commentParts heading.comment).length) true
          (commentParts heading.comment) (fieldWords heading) := by
      simp [Declaration.tokens, kind]
    rw [tokens_eq, fieldWords, lineTokens_opening, placed_eq]
    intro more
    apply readMember_binding endLine _ heading.comment modified
    exact readBindings_canonical endLine _ _ _ typed valued boundary
  | case kind word payload tidy bare =>
    have none : children = [] := leaf.resolve_left (by simp [Heading.isType, kind])
    have placed_eq : (Declaration.node heading children).placed line =
        .node { kind := .case, name := heading.name, comment := heading.comment,
                parameters := heading.parameters,
                line := some ↑(line + (commentParts heading.comment).length) } [] := by
      simp [Declaration.placed, allPlaced, bare, kind, none]
    have tokens_eq : (Declaration.node heading children).tokens line =
        lineTokens (line + (commentParts heading.comment).length) true
          (commentParts heading.comment)
          (([] ++ ["case", heading.name]).map .name ++ payloadWords heading.parameters) := by
      simp [Declaration.tokens, kind, caseWords]
    rw [tokens_eq, lineTokens_opening, placed_eq]
    intro more
    apply readMember_case endLine _ heading.comment
    exact readCases_canonical endLine _ _ payload boundary

theorem opening_mem {modifiers : List String} {keyword : String} (name : String)
    (words : List Word) (line : Nat) (comments : List String)
    (modified : ∀ modifier ∈ modifiers, modifier ∈ modifierWords) (key : keyword ∈ openingWords) :
    ∃ token more, lineTokens line true comments
        ((modifiers ++ [keyword, name]).map .name ++ words) = token :: more ∧
      token.startsLine = true ∧ token.text ∈ openingWords := by
  cases modifiers with
  | nil => exact ⟨_, _, rfl, rfl, key⟩
  | cons modifier modifiers =>
    exact ⟨_, _, rfl, rfl, List.mem_append_left _ (modified modifier List.mem_cons_self)⟩

/-- A declaration begins a line with a modifier or a keyword. -/
theorem tokens_opening {heading : Heading} (children : List Declaration) (line : Nat)
    (canonical : heading.Canonical) :
    ∃ token more, (Declaration.node heading children).tokens line = token :: more ∧
      token.startsLine = true ∧ token.text ∈ openingWords := by
  cases canonical with
  | type kind word conforms modified =>
    have key : typeKeyword heading.kind ∈ openingWords := by
      rcases kind with kind | kind <;> rw [kind] <;> decide
    obtain ⟨token, more, line_eq, starts, member⟩ := opening_mem heading.name
      (conformanceWords heading.conformances ++ [.mark openBrace])
      (line + (commentParts heading.comment).length) (commentParts heading.comment) modified key
    rw [tokens_type line kind, typeWords, line_eq]
    exact ⟨token, _, rfl, starts, member⟩
  | field kind word modified =>
    simp only [Declaration.tokens, kind, fieldWords]
    exact opening_mem _ _ _ _ modified (by decide)
  | case kind word payload =>
    simp only [Declaration.tokens, kind, caseWords]
    exact ⟨_, _, rfl, rfl, (by decide : "case" ∈ openingWords)⟩

theorem boundary_cons {token : Token} {rest : List Token} (starts : token.startsLine = true)
    (member : token.text ∈ boundaryWords) : Boundary (token :: rest) := by
  intro first at_head
  cases at_head
  exact ⟨starts, member⟩

theorem Boundary.behind_declarations {declarations : List Declaration} {rest : List Token}
    (boundary : Boundary rest) (line : Nat) (canonical : AllCanonical declarations) :
    Boundary (allTokens line declarations ++ rest) := by
  cases declarations with
  | nil => exact boundary
  | cons declaration others =>
    obtain ⟨heading, children⟩ := declaration
    rw [AllCanonical, Declaration.Canonical] at canonical
    obtain ⟨token, more, tokens_eq, starts, member⟩ :=
      tokens_opening children line canonical.1.1
    rw [allTokens, tokens_eq]
    exact boundary_cons starts (List.mem_append_left _ member)

/-- A declaration does not begin with a closing brace. -/
theorem tokens_front {heading : Heading} (children : List Declaration) (line : Nat)
    (behind : List Token) (canonical : heading.Canonical) :
    (Declaration.node heading children).tokens line ++ behind ≠ [] ∧
      textAt ((Declaration.node heading children).tokens line ++ behind) ≠ closeBrace ∧
      accept? closeBrace ((Declaration.node heading children).tokens line ++ behind) = none := by
  obtain ⟨token, more, tokens_eq, starts, opens⟩ := tokens_opening children line canonical
  have other : token.text ≠ closeBrace := fun same => absurd (same ▸ opens) (by decide)
  rw [tokens_eq]
  refine ⟨List.cons_ne_nil _ _, other, ?_⟩
  rw [List.cons_append, accept?, if_neg (by simp [Token.reads, other])]

theorem readBody_canonical (endLine : Nat) {declarations : List Declaration}
    (canonical : AllCanonical declarations) (line last : Nat) (rest : List Token) :
    Takes (readBody endLine (allTokens line declarations ++
      (Word.mark closeBrace).token last true [] :: rest)) (allPlaced line declarations) rest := by
  induction declarations using Declaration.forest_induction generalizing line last rest with
  | nil =>
    rw [allTokens, List.nil_append, readBody, accept?_mark]
    exact ⟨_, _, rfl⟩
  | cons heading children others inner after =>
    rw [AllCanonical, Declaration.Canonical] at canonical
    obtain ⟨⟨own, leaf, nested⟩, later⟩ := canonical
    have close : Boundary ((Word.mark closeBrace).token last true [] :: rest) :=
      boundary_cons rfl (by decide : closeBrace ∈ boundaryWords)
    have boundary := close.behind_declarations
      (line + (Declaration.node heading children).lines.length) later
    have further := after later (line + (Declaration.node heading children).lines.length) last rest
    rw [allTokens, List.append_assoc]
    generalize allTokens (line + (Declaration.node heading children).lines.length) others ++
      (Word.mark closeBrace).token last true [] :: rest = behind at boundary further ⊢
    obtain ⟨nonempty, _, no_close⟩ := tokens_front children line behind own
    obtain ⟨tail, shorter, taken⟩ :=
      readMember_canonical endLine line own leaf boundary (inner nested) nonempty
    obtain ⟨further_tail, further_shorter, further⟩ := further
    rw [readBody, no_close]
    simp only [dif_neg nonempty, taken, bind, Except.bind, further]
    exact ⟨_, _, rfl⟩

theorem readDeclarations_canonical (endLine : Nat) {declarations : List Declaration}
    (canonical : AllCanonical declarations) (line : Nat) :
    readDeclarations endLine (allTokens line declarations) = .ok (allPlaced line declarations) := by
  induction declarations generalizing line with
  | nil =>
    rw [allTokens, readDeclarations, dif_pos rfl]
    rfl
  | cons declaration others ih =>
    obtain ⟨heading, children⟩ := declaration
    rw [AllCanonical, Declaration.Canonical] at canonical
    obtain ⟨⟨own, leaf, nested⟩, later⟩ := canonical
    have at_end : Boundary [] := by
      intro token at_head
      cases at_head
    have boundary := at_end.behind_declarations
      (line + (Declaration.node heading children).lines.length) later
    have further := ih later (line + (Declaration.node heading children).lines.length)
    rw [List.append_nil] at boundary
    rw [allTokens]
    generalize allTokens (line + (Declaration.node heading children).lines.length) others = behind
      at boundary further ⊢
    obtain ⟨nonempty, no_close, _⟩ := tokens_front children line behind own
    obtain ⟨tail, shorter, taken⟩ := readMember_canonical endLine line own leaf boundary
      (readBody_canonical endLine nested) nonempty
    rw [readDeclarations, dif_neg nonempty, if_neg no_close]
    simp only [taken, bind, Except.bind, further]
    rfl

theorem parse_canonical {declarations : List Declaration} (canonical : AllCanonical declarations) :
    parse (printDeclarations declarations) = .ok (allPlaced 1 declarations) := by
  rw [parse, tokenize_printDeclarations canonical]
  exact readDeclarations_canonical _ canonical 1

/-- Printing canonical declarations and reading the text gives them back, with the lines that they
begin on. -/
theorem parse_printDeclarations (declarations : List Declaration)
    (canonical : AllCanonical declarations) :
    parse (printDeclarations declarations) = .ok (allPlaced 1 declarations) ∧
      allUnplaced (allPlaced 1 declarations) = allUnplaced declarations :=
  ⟨parse_canonical canonical, allUnplaced_allPlaced declarations 1⟩

/-- A commented type with fields of all shapes and values, and a sum nested in it. -/
def ledger : List Declaration :=
  [.node { kind := .record, name := "Ledger", conformances := ["Object", "Codable"],
           modifiers := ["public", "final"], comment := "Kept by hand.\n\nOne per year." }
    [.node { kind := .field, name := "owner", modifiers := ["static"],
             shape := some (.optional (dotted ["Book", "Owner"])) } [],
      .node { kind := .field, name := "pages", comment := "In order.",
              shape := some (.array (dotted ["Page"])) } [],
      .node { kind := .field, name := "size", shape := some (.plain (dotted ["Int"])),
              initializer := some ⟨.integer, "0x1F", []⟩ } [],
      .node { kind := .field, name := "title",
              initializer := some ⟨.string, "\"The // ledger\"", ["The // ledger"]⟩ } [],
      .node { kind := .sum, name := "Entry", modifiers := ["indirect"] }
        [.node { kind := .case, name := "gap" } [],
          .node { kind := .case, name := "line",
                  parameters := [⟨some "amount", .plain (dotted ["Int"])⟩,
                    ⟨none, .array (dotted ["Note"])⟩] } []]]]

theorem ledger_canonical : AllCanonical ledger := by
  have path : ∀ part ∈ ["Int", "Page", "Note"], IsTypePath [part] := by
    intro part member
    have word : isWord part = true ∧ part ∉ existentialWords := by
      revert part
      decide
    exact ⟨List.cons_ne_nil _ _, by simp [word.1], by simp [word.2]⟩
  have owner : IsTypePath ["Book", "Owner"] :=
    ⟨List.cons_ne_nil _ _, by decide, by rintro part ⟨⟩; decide⟩
  simp only [ledger, AllCanonical, Declaration.Canonical, and_true]
  refine ⟨.type (.inl rfl) (by decide) (by decide) (by decide) (by unfold IsTidy; decide)
    ⟨rfl, rfl, rfl⟩, .inl rfl, ?_, ?_, ?_, ?_, ?_⟩
  · exact ⟨.field rfl (by decide) (by decide) (by rintro type ⟨⟩; exact .optional owner)
      (by simp) isTidy_empty ⟨rfl, rfl⟩, .inr trivial⟩
  · exact ⟨.field rfl (by decide) (by decide)
      (by rintro type ⟨⟩; exact .array (path "Page" (by decide))) (by simp)
      (by unfold IsTidy; decide) ⟨rfl, rfl⟩, .inr trivial⟩
  · exact ⟨.field rfl (by decide) (by decide)
      (by rintro type ⟨⟩; exact .plain (path "Int" (by decide)))
      (by rintro value ⟨⟩; exact .integer (by decide)) isTidy_empty ⟨rfl, rfl⟩, .inr trivial⟩
  · have title : Initializer.Canonical ⟨.string, "\"The // ledger\"", ["The // ledger"]⟩ :=
      .string (by simp : ∀ c ∈ "The // ledger".toList, c ≠ '"' ∧ c ≠ '\\' ∧ c ≠ '\n')
    exact ⟨.field rfl (by decide) (by decide) (by simp) (by rintro value ⟨⟩; exact title)
      isTidy_empty ⟨rfl, rfl⟩, .inr trivial⟩
  · refine ⟨.type (.inr rfl) (by decide) (by decide) (by decide) isTidy_empty ⟨rfl, rfl, rfl⟩,
      .inl rfl,
      ⟨.case rfl (by decide) (by simp) isTidy_empty ⟨rfl, rfl, rfl, rfl⟩, .inr trivial⟩,
      ⟨.case rfl (by decide) ?_ isTidy_empty ⟨rfl, rfl, rfl, rfl⟩, .inr trivial⟩⟩
    intro parameter member
    simp only [List.mem_cons, List.not_mem_nil, or_false] at member
    rcases member with rfl | rfl
    · exact ⟨by decide, .plain (path "Int" (by decide))⟩
    · exact ⟨by simp, .array (path "Note" (by decide))⟩

theorem ledger_read_back :
    allLines ledger =
        ["/// Kept by hand.", "/// ", "/// One per year.",
          "public final struct Ledger: Object, Codable \x7b", "static let owner: Book.Owner?",
          "/// In order.", "let pages: [Page]", "let size: Int = 0x1F",
          "let title = \"The // ledger\"", "indirect enum Entry \x7b", "case gap",
          "case line(amount: Int, [Note])", "\x7d", "\x7d"] ∧
      parse (printDeclarations ledger) = .ok (allPlaced 1 ledger) :=
  ⟨by decide +kernel, (parse_printDeclarations ledger ledger_canonical).1⟩

end ApiHandbook.Source
