import ApiHandbook.Source.Reading.Member
import ApiHandbook.Proofs.Except
import ApiHandbook.Proofs.Source.Loops

/-!
# Loops of the reader

Cutting a text into pieces and reading declarations are loops. None of them can stay where it is:
each member, item, parameter or token is taken before the next turn begins.
-/
namespace ApiHandbook.Source

/-! ## Cutting a text -/

/-- Cuts off one piece a turn. -/
def cuttingLoop : Loop Char where
  State := Nat × List Piece × List Char
  Result := List Piece
  ahead := fun (_, _, text) => text
  left _ := []
  turn := fun (line, found, text) =>
    match text with
    | [] => .ok (.ends found)
    | c :: rest => do
      let extent ← frontExtent line c rest
      return .again (line + extent.breaks,
        found ++ [⟨extent.kind, c :: rest.take extent.more, extent.breaks⟩], rest.drop extent.more)
  reader := fun (line, found, text) => (piecesFrom line text).map (found ++ ·)

theorem cuttingLoop_advances : cuttingLoop.Advances := by
  constructor
  · rintro ⟨line, found, text⟩ next turn
    cases text with
    | nil => cases turn
    | cons c rest =>
      obtain ⟨extent, -, made⟩ := ok_of_bind turn
      cases made
      exact (forward_cons c rest).further (List.drop_suffix _ _)
  · exact fun _ _ _ => List.nil_suffix

theorem cuttingLoop_unrolls : cuttingLoop.Unrolls := by
  rintro ⟨line, found, text⟩
  cases text with
  | nil => simp [cuttingLoop, piecesFrom, Except.map, bind, Except.bind]
  | cons c rest =>
    change (piecesFrom line (c :: rest)).map (found ++ ·) = _
    rw [piecesFrom]
    cases front : frontExtent line c rest with
    | error fault => simp [cuttingLoop, front, bind, Except.bind, Except.map]
    | ok extent =>
      simp only [cuttingLoop, front, bind, Except.bind, pure, Except.pure]
      cases piecesFrom (line + extent.breaks) (rest.drop extent.more) with
      | error fault => rfl
      | ok others => simp [Except.map]

/-! ## Members -/

/-- Reads one member a turn, to the end of the text. -/
def fileLoop (endLine : Nat) : Loop Token where
  State := List Declaration × List Token
  Result := List Declaration
  ahead := Prod.snd
  left _ := []
  turn := fun (found, tokens) =>
    if more : tokens = [] then .ok (.ends found)
    else if textAt tokens = closeBrace then .error ⟨.unbalanced closeBrace, lineAt endLine tokens⟩
    else do
      let member ← readMember endLine tokens more
      return .again (found ++ member.value, member.rest)
  reader := fun (found, tokens) => (readDeclarations endLine tokens).map (found ++ ·)

/-- Reads one member a turn, to the closing brace. -/
def bodyLoop (endLine : Nat) : Loop Token where
  State := List Declaration × List Token
  Result := List Declaration × List Token
  ahead := Prod.snd
  left := Prod.snd
  turn := fun (found, tokens) =>
    match accept? closeBrace tokens with
    | some close => .ok (.ends (found, close.rest))
    | none =>
      if more : tokens = [] then .error ⟨.endBefore closeBrace, endLine⟩
      else do
        let member ← readMember endLine tokens more
        return .again (found ++ member.value, member.rest)
  reader := fun (found, tokens) =>
    (readBody endLine tokens).map fun body => (found ++ body.value, body.rest)

section
variable (endLine : Nat)

theorem fileLoop_advances : (fileLoop endLine).Advances := by
  constructor
  · rintro ⟨found, tokens⟩ next turn
    simp only [fileLoop] at turn
    split at turn
    · cases turn
    · split at turn
      · cases turn
      · obtain ⟨member, -, made⟩ := ok_of_bind turn
        cases made
        exact member.forward
  · exact fun _ _ _ => List.nil_suffix

theorem fileLoop_unrolls : (fileLoop endLine).Unrolls := by
  rintro ⟨found, tokens⟩
  simp only [fileLoop]
  rw [readDeclarations]
  split
  · simp [Except.map, bind, Except.bind]
  · split
    · rfl
    · rename_i more _
      cases readMember endLine tokens more with
      | error fault => rfl
      | ok member =>
        simp only [bind, Except.bind, pure, Except.pure]
        cases readDeclarations endLine member.rest with
        | error fault => rfl
        | ok further => simp [Except.map]

theorem bodyLoop_alwaysAdvances : (bodyLoop endLine).AlwaysAdvances := by
  rintro ⟨found, tokens⟩ turn success
  simp only [bodyLoop] at success
  split at success
  · rename_i close _
    cases success
    exact close.forward
  · split at success
    · cases success
    · obtain ⟨member, -, made⟩ := ok_of_bind success
      cases made
      exact member.forward

theorem bodyLoop_unrolls : (bodyLoop endLine).Unrolls := by
  rintro ⟨found, tokens⟩
  simp only [bodyLoop]
  rw [readBody.eq_def]
  cases accept? closeBrace tokens with
  | some close => simp [Except.map, Reading.map, bind, Except.bind]
  | none =>
    dsimp only
    split
    · rfl
    · rename_i more
      cases readMember endLine tokens more with
      | error fault => rfl
      | ok member =>
        simp only [bind, Except.bind, pure, Except.pure]
        cases readBody endLine member.rest with
        | error fault => rfl
        | ok further => simp [Except.map, Reading.map, Reading.behind]

end

/-! ## Items between commas -/

/-- Reads one item a turn and the comma behind it, to an item without a comma behind it. -/
def separatedLoop {β : Type}
    (item : List β → (tokens : List Token) → Except SyntaxError (Advance tokens (List β)))
    (reader : List β × List Token → Except SyntaxError (List β × List Token)) : Loop Token where
  State := List β × List Token
  Result := List β × List Token
  ahead := Prod.snd
  left := Prod.snd
  turn := fun (found, tokens) => do
    let next ← item found tokens
    match accept? "," next.rest with
    | none => return .ends (found ++ next.value, next.rest)
    | some comma => return .again (found ++ next.value, comma.rest)
  reader

section
variable {β : Type}
  {item : List β → (tokens : List Token) → Except SyntaxError (Advance tokens (List β))}
  {reader : List β × List Token → Except SyntaxError (List β × List Token)}

theorem separatedLoop_advances : (separatedLoop item reader).Advances := by
  constructor
  · rintro ⟨found, tokens⟩ state turn
    obtain ⟨next, -, made⟩ := ok_of_bind turn
    split at made
    · cases made
    · rename_i comma _
      cases made
      exact comma.forward.behind next.tail
  · rintro ⟨found, tokens⟩ result turn
    obtain ⟨next, -, made⟩ := ok_of_bind turn
    split at made
    · cases made
      exact next.tail
    · cases made

theorem separatedLoop_alwaysAdvances
    (forward : ∀ found tokens next, item found tokens = .ok next → Forward tokens next.rest) :
    (separatedLoop item reader).AlwaysAdvances := by
  rintro ⟨found, tokens⟩ turn success
  obtain ⟨next, read, made⟩ := ok_of_bind success
  have taken := forward found tokens next read
  split at made
  · cases made
    exact taken
  · rename_i comma _
    cases made
    exact taken.further comma.tail

end

def bindingsLoop (endLine : Nat) (modifiers : List String) (comment : String) : Loop Token :=
  separatedLoop
    (fun _ tokens => (readBinding endLine modifiers comment tokens).map Reading.toAdvance)
    fun (found, tokens) => (readBindings endLine modifiers comment tokens).map
      fun bindings => (found ++ bindings.value, bindings.rest)

/-- Only the first case of a declaration has its comment. -/
def caseComment (comment : String) (found : List Declaration) : String :=
  if found.isEmpty then comment else ""

/-- Reads what stands behind the name of a case. -/
def readCaseEnd (endLine : Nat) (tokens : List Token) :
    Except SyntaxError (Advance tokens (List CaseParameter)) := do
  let parameters ← readCaseParameters endLine tokens
  let value ← readAssignment endLine parameters.rest
  return (value.behind parameters.tail).map fun _ => parameters.value

/-- Reads one case. -/
def readCase (endLine : Nat) (comment : String) (tokens : List Token) :
    Except SyntaxError (Reading tokens (List Declaration)) := do
  let name ← expectName endLine tokens
  let parameters ← readCaseEnd endLine name.rest
  return Advance.after name (parameters.map fun parameters => [.node
    { kind := .case, name := name.value.text, comment, parameters,
      line := some name.value.line } []])

def casesLoop (endLine : Nat) (comment : String) : Loop Token :=
  separatedLoop
    (fun found tokens =>
      (readCase endLine (caseComment comment found) tokens).map Reading.toAdvance)
    fun (found, tokens) => (readCases endLine (caseComment comment found) tokens).map
      fun cases => (found ++ cases.value, cases.rest)

def conformancesLoop : Loop Token :=
  separatedLoop
    (fun _ tokens =>
      let length := conformanceLength 0 tokens
      .ok ⟨[joinTexts (tokens.take length)], tokens.drop length, List.drop_suffix length tokens⟩)
    fun (found, tokens) =>
      let conformances := readConformances tokens
      .ok (found ++ conformances.value, conformances.rest)

section
variable (endLine : Nat) (modifiers : List String) (comment : String)

theorem bindingsLoop_unrolls : (bindingsLoop endLine modifiers comment).Unrolls := by
  rintro ⟨found, tokens⟩
  simp only [bindingsLoop, separatedLoop]
  rw [readBindings]
  cases readBinding endLine modifiers comment tokens with
  | error fault => rfl
  | ok binding =>
    simp only [bind, Except.bind, pure, Except.pure, Except.map, Reading.toAdvance]
    cases accept? "," binding.rest with
    | none => rfl
    | some comma =>
      simp only
      cases readBindings endLine modifiers comment comma.rest with
      | error fault => rfl
      | ok further => simp [Reading.map, Reading.behind]

theorem bindingsLoop_alwaysAdvances :
    (bindingsLoop endLine modifiers comment).AlwaysAdvances := by
  apply separatedLoop_alwaysAdvances
  intro found tokens next read
  obtain ⟨binding, -, rfl⟩ := ok_of_map read
  exact binding.forward

theorem casesLoop_unrolls : (casesLoop endLine comment).Unrolls := by
  rintro ⟨found, tokens⟩
  simp only [casesLoop, separatedLoop]
  generalize caseComment comment found = given
  rw [readCases, readCase]
  simp only [readCaseEnd]
  cases expectName endLine tokens with
  | error fault => rfl
  | ok name =>
    simp only [bind, Except.bind, pure, Except.pure, Except.map]
    cases readCaseParameters endLine name.rest with
    | error fault => rfl
    | ok parameters =>
      simp only
      cases readAssignment endLine parameters.rest with
      | error fault => rfl
      | ok value =>
        simp only [Reading.toAdvance, Advance.after, Advance.map, Advance.behind]
        cases accept? "," value.rest with
        | none => rfl
        | some comma =>
          have later : ∀ case, caseComment comment (found ++ [case]) = "" :=
            fun case => if_neg (by simp)
          simp only [later]
          cases readCases endLine "" comma.rest with
          | error fault => rfl
          | ok further => simp [Reading.map, Reading.behind]

theorem casesLoop_alwaysAdvances : (casesLoop endLine comment).AlwaysAdvances := by
  apply separatedLoop_alwaysAdvances
  intro found tokens next read
  obtain ⟨case, -, rfl⟩ := ok_of_map read
  exact case.forward

theorem conformancesLoop_unrolls : conformancesLoop.Unrolls := by
  rintro ⟨found, tokens⟩
  simp only [conformancesLoop, separatedLoop]
  rw [readConformances]
  simp only [bind, Except.bind, pure, Except.pure]
  cases accept? "," (tokens.drop (conformanceLength 0 tokens)) with
  | none => rfl
  | some comma => simp [Advance.map, Advance.behind]

end

/-! ## Parameters, constraints, functions and values -/

/-- Reads one parameter a turn, to the closing parenthesis. -/
def parametersLoop (endLine : Nat) : Loop Token where
  State := List CaseParameter × List Token
  Result := List CaseParameter × List Token
  ahead := Prod.snd
  left := Prod.snd
  turn := fun (found, tokens) =>
    match accept? ")" tokens with
    | some close => .ok (.ends (found, close.rest))
    | none => do
      let label := readLabel tokens
      let shape ← readShape endLine label.rest
      let value ← readAssignment endLine shape.rest
      let found := found ++ [⟨label.value, shape.value⟩]
      match accept? "," value.rest with
      | some comma => return .again (found, comma.rest)
      | none =>
        match accept? ")" value.rest with
        | some close => return .ends (found, close.rest)
        | none => throw ⟨.expectedMark ")" (textAt value.rest), lineAt endLine value.rest⟩
  reader := fun (found, tokens) =>
    (readParameters endLine tokens).map
      fun parameters => (found ++ parameters.value, parameters.rest)

/-- Passes over one token of the constraints of a type a turn, to its body. -/
def constraintsLoop : Loop Token where
  State := List Token
  Result := List Token
  ahead := id
  left := id
  turn
    | [] => .ok (.ends [])
    | token :: rest => .ok (if token.reads openBrace then .ends (token :: rest) else .again rest)
  reader tokens := .ok (passWhile (!·.reads openBrace) tokens).rest

/-- Passes over one token of a function a turn, to its body or its end. -/
def functionLoop (endLine : Nat) : Loop Token where
  State := Int × Bool × List Token
  Result := List Token
  ahead := fun (_, _, tokens) => tokens
  left := id
  turn := fun (depth, closed, tokens) =>
    match tokens with
    | [] => .ok (.ends [])
    | token :: rest =>
      if depth = 0 && token.isMark openBrace then do
        return .ends (← skipBraces endLine (token :: rest)).rest
      else if depth = 0 && (token.isMarkIn [closeBrace, ";"]
          || closed && token.startsLine && !headerWords.contains token.text) then
        .ok (.ends (token :: rest))
      else if token.isMarkIn ["(", "["] then .ok (.again (depth + 1, closed, rest))
      else if token.isMarkIn [")", "]"] then
        .ok (.again (depth - 1, closed || depth = 1, rest))
      else .ok (.again (depth, closed, rest))
  reader := fun (depth, closed, tokens) =>
    (skipFunction endLine depth closed tokens).map Advance.rest

/-- Passes over one token of a value a turn, to its end. -/
def valueLoop : Loop Token where
  State := Bool × Nat × List Token
  Result := List Token
  ahead := fun (_, _, tokens) => tokens
  left := id
  turn := fun (begun, depth, tokens) =>
    match tokens with
    | [] => .ok (.ends [])
    | token :: rest =>
      if depth = 0 && (begun && token.endsValue || token.isMarkIn closingMarks) then
        .ok (.ends (token :: rest))
      else if token.isMarkIn openingMarks then .ok (.again (true, depth + 1, rest))
      else if token.isMarkIn closingMarks then .ok (.again (true, depth - 1, rest))
      else .ok (.again (true, depth, rest))
  reader := fun (begun, depth, tokens) => .ok (tokens.drop (valueLength begun depth tokens))

section
variable (endLine : Nat)

theorem parametersLoop_alwaysAdvances : (parametersLoop endLine).AlwaysAdvances := by
  rintro ⟨found, tokens⟩ turn success
  simp only [parametersLoop] at success
  split at success
  · rename_i close _
    cases success
    exact close.forward
  · obtain ⟨shape, -, success⟩ := ok_of_bind success
    obtain ⟨value, -, success⟩ := ok_of_bind success
    have tail := value.tail.trans (shape.tail.trans (readLabel tokens).tail)
    split at success
    · rename_i comma _
      cases success
      exact comma.forward.behind tail
    · split at success
      · rename_i close _
        cases success
        exact close.forward.behind tail
      · cases success

theorem parametersLoop_unrolls : (parametersLoop endLine).Unrolls := by
  rintro ⟨found, tokens⟩
  simp only [parametersLoop]
  rw [readParameters]
  cases accept? ")" tokens with
  | some close => simp [Except.map, Reading.map, bind, Except.bind]
  | none =>
    simp only
    cases readShape endLine (readLabel tokens).rest with
    | error fault => rfl
    | ok shape =>
      simp only [bind, Except.bind]
      cases readAssignment endLine shape.rest with
      | error fault => rfl
      | ok value =>
        simp only [pure, Except.pure]
        cases accept? "," value.rest with
        | some comma =>
          simp only
          cases readParameters endLine comma.rest with
          | error fault => rfl
          | ok further => simp [Except.map, Reading.map, Reading.behind]
        | none =>
          simp only
          cases accept? ")" value.rest with
          | none => rfl
          | some close => rfl

theorem constraintsLoop_advances : constraintsLoop.Advances := by
  constructor
  · intro tokens next turn
    cases tokens with
    | nil => cases turn
    | cons token rest =>
      simp only [constraintsLoop] at turn
      split at turn
      · cases turn
      · cases turn
        exact forward_cons token _
  · intro tokens result turn
    cases tokens with
    | nil =>
      cases turn
      exact List.suffix_refl _
    | cons token rest =>
      simp only [constraintsLoop] at turn
      split at turn
      · cases turn
        exact List.suffix_refl _
      · cases turn

theorem constraintsLoop_unrolls : constraintsLoop.Unrolls := by
  intro tokens
  cases tokens with
  | nil => rfl
  | cons token rest =>
    simp only [constraintsLoop, passWhile, List.dropWhile_cons]
    cases token.reads openBrace <;> rfl

theorem functionLoop_advances : (functionLoop endLine).Advances := by
  constructor
  · rintro ⟨depth, closed, tokens⟩ next turn
    cases tokens with
    | nil => cases turn
    | cons token rest =>
      simp only [functionLoop] at turn
      split at turn
      · obtain ⟨braces, -, made⟩ := ok_of_bind turn
        cases made
      · split_ifs at turn <;> cases turn <;> exact forward_cons token rest
  · rintro ⟨depth, closed, tokens⟩ result turn
    cases tokens with
    | nil =>
      cases turn
      exact List.suffix_refl _
    | cons token rest =>
      simp only [functionLoop] at turn
      split at turn
      · obtain ⟨braces, -, made⟩ := ok_of_bind turn
        cases made
        exact braces.tail
      · split_ifs at turn <;> cases turn
        exact List.suffix_refl _

theorem functionLoop_unrolls : (functionLoop endLine).Unrolls := by
  rintro ⟨depth, closed, tokens⟩
  cases tokens with
  | nil => rfl
  | cons token rest =>
    have onward : ∀ further : Except SyntaxError (Advance rest Unit),
        (further >>= fun passed => pure (passed.behind (List.suffix_cons token rest))).map
          Advance.rest = further.map Advance.rest := by
      intro further
      cases further <;> rfl
    simp only [functionLoop]
    rw [skipFunction]
    split_ifs
    · cases skipBraces endLine (token :: rest) <;> rfl
    · rfl
    · exact onward _
    · exact onward _
    · exact onward _

theorem valueLoop_advances : valueLoop.Advances := by
  constructor
  · rintro ⟨begun, depth, tokens⟩ next turn
    cases tokens with
    | nil => cases turn
    | cons token rest =>
      simp only [valueLoop] at turn
      split_ifs at turn <;> cases turn <;> exact forward_cons token rest
  · rintro ⟨begun, depth, tokens⟩ result turn
    cases tokens with
    | nil =>
      cases turn
      exact List.suffix_refl _
    | cons token rest =>
      simp only [valueLoop] at turn
      split_ifs at turn <;> cases turn
      exact List.suffix_refl _

theorem valueLoop_unrolls : valueLoop.Unrolls := by
  rintro ⟨begun, depth, tokens⟩
  cases tokens with
  | nil => rfl
  | cons token rest =>
    simp only [valueLoop, valueLength]
    split_ifs <;> rfl

end

/-! ## Reading a text -/

theorem readInitializer_valueLoop {endLine : Nat} {tokens : List Token}
    {value : Reading tokens Initializer} (success : readInitializer endLine tokens = .ok value) :
    valueLoop.reader (false, 0, tokens) = .ok value.rest := by
  cases tokens with
  | nil => cases success
  | cons token rest =>
    rw [readInitializer] at success
    cases length_eq : valueLength false 0 (token :: rest) with
    | zero =>
      rw [length_eq] at success
      cases success
    | succ length =>
      rw [length_eq] at success
      cases success
      simp only [valueLoop, length_eq, List.drop_succ_cons]

theorem cuttingLoop_pieces (text : List Char) :
    cuttingLoop.reader (1, [], text) = pieces text := by
  change (piecesFrom 1 text).map ([] ++ ·) = piecesFrom 1 text
  cases piecesFrom 1 text <;> rfl

theorem fileLoop_parse {text : List Char} {found : List Piece} (cut : pieces text = .ok found) :
    let stream := tokensFrom 1 true [] found
    (fileLoop stream.endLine).reader ([], stream.tokens) = parse text := by
  intro stream
  have parse_eq : parse text = readDeclarations stream.endLine stream.tokens := by
    rw [parse, tokenize, cut]
    rfl
  rw [parse_eq]
  change (readDeclarations stream.endLine stream.tokens).map ([] ++ ·) = _
  cases readDeclarations stream.endLine stream.tokens <;> rfl

/-- Whatever a text is like, cutting it comes to an end, and so does reading its tokens: all loops
move forward in each turn that goes round again, and none moves past the end. A member takes at
least one token. -/
theorem reading_terminates (endLine : Nat) (modifiers : List String) (comment : String) :
    (∀ text, ∃ cuts, cuttingLoop.Runs (1, [], text) cuts (pieces text) ∧
      ((∃ fault, pieces text = .error fault ∧ parse text = .error fault) ∨
        ∃ found turns, pieces text = .ok found ∧
          (fileLoop (tokensFrom 1 true [] found).endLine).Runs
            ([], (tokensFrom 1 true [] found).tokens) turns (parse text))) ∧
    (∀ tokens more reading, readMember endLine tokens more = .ok reading →
      Forward tokens reading.rest) ∧
    (∀ tokens value, readInitializer endLine tokens = .ok value →
      valueLoop.reader (false, 0, tokens) = .ok value.rest) ∧
    cuttingLoop.Terminates ∧
    (∀ loop ∈ [fileLoop endLine, bodyLoop endLine, bindingsLoop endLine modifiers comment,
        casesLoop endLine comment, parametersLoop endLine, conformancesLoop, constraintsLoop,
        functionLoop endLine, valueLoop], loop.Terminates) ∧
    ∀ loop ∈ [bodyLoop endLine, bindingsLoop endLine modifiers comment, casesLoop endLine comment,
        parametersLoop endLine], loop.AlwaysAdvances := by
  have cutting := Loop.terminates cuttingLoop_advances cuttingLoop_unrolls
  have file := fun endLine => Loop.terminates (fileLoop_advances endLine) (fileLoop_unrolls endLine)
  have body_moves := bodyLoop_alwaysAdvances endLine
  have bindings_move := bindingsLoop_alwaysAdvances endLine modifiers comment
  have cases_move := casesLoop_alwaysAdvances endLine comment
  have parameters_move := parametersLoop_alwaysAdvances endLine
  refine ⟨fun text => ?_, fun _ _ reading _ => reading.forward,
    fun _ _ success => readInitializer_valueLoop success, cutting, ?_, ?_⟩
  · obtain ⟨cuts, runs, -⟩ := cutting.2 (1, [], text)
    rw [cuttingLoop_pieces] at runs
    refine ⟨cuts, runs, ?_⟩
    cases cut : pieces text with
    | error fault =>
      have failed : parse text = .error fault := by
        rw [parse, tokenize, cut]
        rfl
      exact .inl ⟨fault, rfl, failed⟩
    | ok found =>
      obtain ⟨turns, runs, -⟩ := (file _).2 ([], (tokensFrom 1 true [] found).tokens)
      rw [fileLoop_parse cut] at runs
      exact .inr ⟨found, turns, rfl, runs⟩
  · simp only [List.forall_mem_cons]
    exact ⟨file endLine, Loop.terminates body_moves.advances (bodyLoop_unrolls endLine),
      Loop.terminates bindings_move.advances (bindingsLoop_unrolls endLine modifiers comment),
      Loop.terminates cases_move.advances (casesLoop_unrolls endLine comment),
      Loop.terminates parameters_move.advances (parametersLoop_unrolls endLine),
      Loop.terminates separatedLoop_advances conformancesLoop_unrolls,
      Loop.terminates constraintsLoop_advances constraintsLoop_unrolls,
      Loop.terminates (functionLoop_advances endLine) (functionLoop_unrolls endLine),
      Loop.terminates valueLoop_advances valueLoop_unrolls, List.forall_mem_nil _⟩
  · simp only [List.forall_mem_cons]
    exact ⟨body_moves, bindings_move, cases_move, parameters_move, List.forall_mem_nil _⟩

/-- A field in front of a closing brace: the field is taken and the brace is left, and the loop
over the body runs from the field to the end. -/
theorem field_before_brace_read :
    let brace : Token := ⟨.mark, closeBrace, 1, false, [], []⟩
    let tokens : List Token :=
      [⟨.name, "let", 1, true, [], []⟩, ⟨.name, "x", 1, false, [], []⟩, brace]
    (∃ more reading, readMember 1 tokens more = .ok reading ∧ reading.rest = [brace] ∧
      Forward tokens reading.rest) ∧
    ∃ states, (bodyLoop 1).Runs ([], tokens) states ((bodyLoop 1).reader ([], tokens)) ∧
      states.length ≤ 4 := by
  intro brace tokens
  have told := reading_terminates 1 [] ""
  constructor
  · have taken : (readMember 1 tokens (List.cons_ne_nil _ _)).map Reading.rest = .ok [brace] := by
      decide +kernel
    obtain ⟨reading, success, rest_eq⟩ := ok_of_map taken
    exact ⟨_, reading, success, rest_eq, told.2.1 tokens _ reading success⟩
  · have terminates := told.2.2.2.2.1 (bodyLoop 1) (by simp)
    obtain ⟨states, runs, -, bound⟩ := terminates.2 ([], tokens)
    exact ⟨states, runs, bound⟩

/-- The last turn of a loop may take nothing. A conformance that is empty leaves the brace behind it,
a function without a body leaves the brace of the type around it, and a value leaves the comma
behind it. -/
theorem last_turns_may_stay :
    (∃ rest, (tokenize "struct A: \x7b\x7d".toList).map (·.tokens.drop 3) = .ok rest ∧
      conformancesLoop.Stays ([], rest)) ∧
    (∃ rest, (tokenize "struct A \x7b init \x7d".toList).map (·.tokens.drop 4) = .ok rest ∧
      (functionLoop 1).Stays (0, false, rest)) ∧
    (∃ rest, (tokenize "let a = 1, b = 2".toList).map (·.tokens.drop 4) = .ok rest ∧
      valueLoop.Stays (true, 0, rest)) ∧
    (∀ text ∈ ["struct A: \x7b\x7d", "struct A \x7b init \x7d", "let a = 1, b = 2"],
      (parse text.toList).toOption.isSome = true) ∧
    ¬ conformancesLoop.AlwaysAdvances ∧ ¬ (functionLoop 1).AlwaysAdvances ∧
      ¬ valueLoop.AlwaysAdvances := by
  let close : Token := ⟨.mark, closeBrace, 1, false, [], []⟩
  let comma : Token := ⟨.mark, ",", 1, false, [], []⟩
  have conformance : conformancesLoop.Stays ([], [⟨.mark, openBrace, 1, false, [], []⟩, close]) :=
    ⟨_, rfl, by decide +kernel⟩
  have function : (functionLoop 1).Stays (0, false, [close]) := ⟨_, rfl, rfl⟩
  have value : valueLoop.Stays (true, 0, [comma, ⟨.name, "b", 1, false, [], []⟩,
      ⟨.mark, "=", 1, false, [], []⟩, ⟨.number, "2", 1, false, [], []⟩]) := ⟨_, rfl, rfl⟩
  exact ⟨⟨_, by decide +kernel, conformance⟩, ⟨_, by decide +kernel, function⟩,
    ⟨_, by decide +kernel, value⟩, by decide +kernel, conformance.not_alwaysAdvances,
    function.not_alwaysAdvances, value.not_alwaysAdvances⟩

end ApiHandbook.Source
