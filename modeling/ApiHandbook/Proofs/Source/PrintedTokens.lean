import ApiHandbook.Proofs.Source.Spelling

/-!
# Tokens of printed declarations

The words of each printed line, and the tokens of all lines together: a declaration's comment
leads the first token of its line, and every line begins behind a line break.
-/
namespace ApiHandbook.Source
open Text

/-! ## Words of a line -/

def pathParts (path : String) : List String := (path.toList.splitOn '.').map String.ofList

def pathWords (parts : List String) : List Word :=
  [Word.mark "."].intercalate (parts.map fun part => [Word.name part])

def TypeShape.words (shape : TypeShape) : List Word :=
  let path := pathWords (pathParts (shape.name.getD ""))
  match shape.kind with
  | .optional => path ++ [.mark "?"]
  | .array => .mark "[" :: (path ++ [.mark "]"])
  | _ => path

def Initializer.words (value : Initializer) : List Word :=
  match value.kind with
  | .string => [{ kind := .string, text := value.text, segments := value.segments }]
  | .integer => [{ kind := .number, text := value.text }]
  | .member => [.mark ".", .name value.text]
  | _ => [.name value.text]

def CaseParameter.words (parameter : CaseParameter) : List Word :=
  parameter.label.elim [] (fun label => [.name label, .mark ":"]) ++ parameter.shape.words

def listed (items : List (List Word)) : List Word := [Word.mark ","].intercalate items

def conformanceWords (conformances : List String) : List Word :=
  if conformances = [] then []
  else .mark ":" :: listed (conformances.map fun other => [Word.name other])

def payloadWords (parameters : List CaseParameter) : List Word :=
  if parameters = [] then [] else .mark "(" :: (listed (parameters.map (·.words)) ++ [.mark ")"])

def typeWords (heading : Heading) : List Word :=
  (heading.modifiers ++ [typeKeyword heading.kind, heading.name]).map .name ++
    (conformanceWords heading.conformances ++ [.mark openBrace])

def fieldWords (heading : Heading) : List Word :=
  (heading.modifiers ++ ["let", heading.name]).map .name ++
    (heading.shape.elim [] (.mark ":" :: ·.words) ++
      heading.initializer.elim [] (.mark "=" :: ·.words))

def caseWords (heading : Heading) : List Word :=
  [.name "case", .name heading.name] ++ payloadWords heading.parameters

/-! ## Lines spell their words -/

/-- What holds of every part, and of two parts with a separator between them, holds of all parts
put together. -/
theorem intercalate_both {α : Type} {spelled : List Char → List Word → Prop}
    {text : α → List Char} {words : α → List Word} {separator : List Char} {between : List Word}
    {items : List α} (nonempty : items ≠ [])
    (each : ∀ item ∈ items, spelled (text item) (words item))
    (glue : ∀ {first second found more}, spelled first found → spelled second more →
      spelled (first ++ (separator ++ second)) (found ++ (between ++ more))) :
    spelled (separator.intercalate (items.map text)) (between.intercalate (items.map words)) := by
  induction items with
  | nil => exact absurd rfl nonempty
  | cons item items ih =>
    cases items with
    | nil => simpa using each item List.mem_cons_self
    | cons next items =>
      have later := ih (List.cons_ne_nil _ _) fun other member =>
        each other (List.mem_cons_of_mem _ member)
      simpa using glue (each item List.mem_cons_self) later

theorem spells_spaced {names : List String} (nonempty : names ≠ [])
    (words : ∀ name ∈ names, isWord name = true) :
    Spells endsName (" ".intercalate names).toList (names.map .name) := by
  induction names with
  | nil => exact absurd rfl nonempty
  | cons name names ih =>
    have first := spells_name (words name List.mem_cons_self)
    cases names with
    | nil => simpa using first
    | cons next names =>
      have later := ih (List.cons_ne_nil _ _) fun other member =>
        words other (List.mem_cons_of_mem _ member)
      simpa using first.appendSpaced later rfl

theorem spells_listed {α : Type} {items : List α} {text : α → String} {words : α → List Word}
    (nonempty : items ≠ [])
    (each : ∀ item ∈ items, Spells endsName (text item).toList (words item)) :
    Spells endsName (", ".intercalate (items.map text)).toList (listed (items.map words)) := by
  have comma : Spells (fun _ => true) [','] [.mark ","] := spells_mark (by decide)
  have joined : Spells endsName ([',', ' '].intercalate (items.map fun item => (text item).toList))
      ([Word.mark ","].intercalate (items.map words)) :=
    intercalate_both nonempty each fun first second => by
      simpa using first.append_cons (comma.appendSpaced second rfl) rfl
  simpa [listed, Function.comp_def] using joined

/-- The names of a path come apart again at its points. -/
theorem pathParts_dotted {parts : List String} (path : IsTypePath parts) :
    pathParts (dotted parts) = parts := by
  have no_point : ∀ name ∈ parts.map String.toList, '.' ∉ name := by
    intro name member point
    obtain ⟨part, within, rfl⟩ := List.mem_map.mp member
    have char := isIdentifier_isNameChar (path.words part within) '.' point
    cases char
  have split := List.splitOn_intercalate '.' no_point (by simpa using path.nonempty)
  rw [pathParts, dotted, String.toList_intercalate]
  simpa using congrArg (List.map String.ofList) split

namespace IsTypePath
variable {parts : List String}

theorem words_plain (path : IsTypePath parts) :
    (TypeShape.plain (dotted parts)).words = pathWords parts := by
  simp [TypeShape.words, TypeShape.plain, pathParts_dotted path]

theorem words_optional (path : IsTypePath parts) :
    (TypeShape.optional (dotted parts)).words = pathWords parts ++ [.mark "?"] := by
  simp [TypeShape.words, TypeShape.optional, pathParts_dotted path]

theorem words_array (path : IsTypePath parts) :
    (TypeShape.array (dotted parts)).words = .mark "[" :: (pathWords parts ++ [.mark "]"]) := by
  simp [TypeShape.words, TypeShape.array, pathParts_dotted path]

end IsTypePath

/-- A spelled text that begins with a name. -/
structure SpellsPath (text : List Char) (words : List Word) : Prop where
  spells : Spells endsName text words
  start : ∀ c ∈ text.head?, isNameStart c = true

theorem SpellsPath.append {first second : List Char} {found more : List Word}
    (path : SpellsPath first found) (further : SpellsPath second more) :
    SpellsPath (first ++ (['.'] ++ second)) (found ++ ([.mark "."] ++ more)) := by
  have no_point : ∀ c ∈ second.head?, decide (c ≠ '.') = true := fun c at_head =>
    decide_eq_true (ne_of_test (further.start c at_head) '.' rfl)
  refine ⟨path.spells.append_cons (spells_point.append further.spells no_point) rfl, ?_⟩
  obtain ⟨c, rest, rfl, _⟩ := path.spells.solid
  exact path.start

theorem spellsPath_name {name : String} (word : isWord name = true) :
    SpellsPath name.toList [.name name] := by
  refine ⟨spells_name word, ?_⟩
  intro c at_head
  obtain ⟨rest, text_eq⟩ := List.head?_eq_some_iff.mp at_head
  rw [isWord, text_eq, isIdentifier, Bool.and_eq_true] at word
  exact word.1

theorem spells_dotted {parts : List String} (path : IsTypePath parts) :
    Spells endsName (dotted parts).toList (pathWords parts) := by
  have joined : SpellsPath (['.'].intercalate (parts.map String.toList)) (pathWords parts) :=
    intercalate_both path.nonempty (fun part member => spellsPath_name (path.words part member))
      SpellsPath.append
  simpa [dotted] using joined.spells

theorem spells_shape {shape : TypeShape} (canonical : shape.Canonical) :
    Spells endsName shape.text.toList shape.words := by
  cases canonical with
  | plain path =>
    rw [path.words_plain]
    exact spells_dotted path
  | optional path =>
    have mark : Spells (fun _ => true) ['?'] [.mark "?"] := spells_mark (by decide)
    have spelled := (spells_dotted path).append_cons mark rfl
    rw [path.words_optional]
    simpa [TypeShape.optional] using spelled.mono fun _ _ => rfl
  | array path =>
    have opening : Spells (fun _ => true) ['['] [.mark "["] := spells_mark (by decide)
    have closing : Spells (fun _ => true) [']'] [.mark "]"] := spells_mark (by decide)
    have inner := (spells_dotted path).append_cons closing rfl
    rw [path.words_array]
    simpa [TypeShape.array] using (opening.append inner fun _ _ => rfl).mono fun _ _ => rfl

theorem spells_value {value : Initializer} (canonical : value.Canonical) :
    Spells (· = '\n') value.written.toList value.words := by
  cases canonical with
  | integer whole => exact spells_number whole
  | boolean truth =>
    refine Spells.mono (spells_name ?_) ?_
    · rcases truth with rfl | rfl <;> decide
    · intro c ends
      rw [of_decide_eq_true ends]
      rfl
  | member word =>
    have name := spellsPath_name word
    have no_point : ∀ c ∈ _, decide (c ≠ '.') = true := fun c at_head =>
      decide_eq_true (ne_of_test (name.start c at_head) '.' rfl)
    have spelled := spells_point.append name.spells no_point
    refine Spells.mono (by simpa [Initializer.written, Initializer.words] using spelled) ?_
    intro c ends
    rw [of_decide_eq_true ends]
    rfl
  | string plain => exact spells_string plain

theorem spells_parameter {parameter : CaseParameter} (canonical : parameter.Canonical) :
    Spells endsName parameter.written.toList parameter.words := by
  have shape := spells_shape canonical.shape
  obtain ⟨label, type⟩ := parameter
  cases label with
  | none => simpa [CaseParameter.written, CaseParameter.words] using shape
  | some label =>
    have colon : Spells (fun _ => true) [':'] [.mark ":"] := spells_mark (by decide)
    have name := spells_name (canonical.label label rfl).1
    have spelled := name.append_cons (colon.appendSpaced shape rfl) rfl
    simpa [CaseParameter.written, CaseParameter.words] using spelled

theorem isWord_of_mem_modifierWords {modifier : String} (member : modifier ∈ modifierWords) :
    isWord modifier = true := by
  have all : modifierWords.all isWord = true := by decide
  exact List.all_eq_true.mp all modifier member

/-- The modifiers, the keyword and the name that a line begins with. -/
theorem spells_opening {modifiers : List String} {keyword name : String}
    (modified : ∀ modifier ∈ modifiers, modifier ∈ modifierWords) (key : isWord keyword = true)
    (word : isWord name = true) :
    Spells endsName (" ".intercalate (modifiers ++ [keyword, name])).toList
      ((modifiers ++ [keyword, name]).map .name) := by
  apply spells_spaced (by simp)
  intro other member
  simp only [List.mem_append, List.mem_cons, List.not_mem_nil, or_false] at member
  rcases member with modifier | rfl | rfl
  · exact isWord_of_mem_modifierWords (modified other modifier)
  · exact key
  · exact word

theorem spells_typeLine {heading : Heading} (word : isWord heading.name = true)
    (conforms : ∀ other ∈ heading.conformances, isWord other = true ∧ other ≠ "where")
    (modified : ∀ modifier ∈ heading.modifiers, modifier ∈ modifierWords) :
    Spells (fun _ => true) (typeLine heading).toList (typeWords heading) := by
  have key : isWord (typeKeyword heading.kind) = true := by
    unfold typeKeyword
    split <;> decide
  have brace : Spells (fun _ => true) ['{'] [.mark openBrace] := spells_mark (by decide)
  have opening := spells_opening modified key word
  unfold typeLine typeWords conformanceWords
  by_cases none : heading.conformances = []
  · simpa [none, openBrace] using opening.appendSpaced brace rfl
  · have colon : Spells (fun _ => true) [':'] [.mark ":"] := spells_mark (by decide)
    have others := spells_listed none fun other member => spells_name (conforms other member).1
    have spelled := (opening.append_cons (colon.appendSpaced others rfl) rfl).appendSpaced brace rfl
    simpa [none, openBrace] using spelled

theorem spells_fieldLine {heading : Heading} (word : isWord heading.name = true)
    (modified : ∀ modifier ∈ heading.modifiers, modifier ∈ modifierWords)
    (typed : ∀ type ∈ heading.shape, type.Canonical)
    (valued : ∀ value ∈ heading.initializer, value.Canonical) :
    Spells (· = '\n') (fieldLine heading).toList (fieldWords heading) := by
  have opening := spells_opening modified (by decide : isWord "let" = true) word
  have annotated : Spells endsName
      (" ".intercalate (heading.modifiers ++ ["let", heading.name]) ++
        heading.shape.elim "" (": " ++ ·.text)).toList
      ((heading.modifiers ++ ["let", heading.name]).map .name ++
        heading.shape.elim [] (.mark ":" :: ·.words)) := by
    cases type_eq : heading.shape with
    | none => simpa using opening
    | some type =>
      have colon : Spells (fun _ => true) [':'] [.mark ":"] := spells_mark (by decide)
      have shape := spells_shape (typed type type_eq)
      simpa using opening.append_cons (colon.appendSpaced shape rfl) rfl
  unfold fieldLine fieldWords
  cases value_eq : heading.initializer with
  | none =>
    simpa using annotated.mono fun c ends => by
      rw [of_decide_eq_true ends]
      rfl
  | some initial =>
    have equals : Spells (fun _ => true) ['='] [.mark "="] := spells_mark (by decide)
    have value := spells_value (valued initial value_eq)
    simpa using annotated.appendSpaced (equals.appendSpaced value rfl) rfl

theorem spells_caseLine {heading : Heading} (word : isWord heading.name = true)
    (payload : ∀ parameter ∈ heading.parameters, parameter.Canonical) :
    Spells endsName (caseLine heading).toList (caseWords heading) := by
  have opening :=
    (spells_name (by decide : isWord "case" = true)).appendSpaced (spells_name word) rfl
  unfold caseLine caseWords payloadWords
  by_cases none : heading.parameters = []
  · simpa [none] using opening
  · have start : Spells (fun _ => true) ['('] [.mark "("] := spells_mark (by decide)
    have close : Spells (fun _ => true) [')'] [.mark ")"] := spells_mark (by decide)
    have parameters := spells_listed none fun parameter member =>
      spells_parameter (payload parameter member)
    have group := start.append (parameters.append_cons close rfl) fun _ _ => rfl
    simpa [none] using (opening.append_cons group rfl).mono fun _ _ => rfl

/-! ## Comments in front of a line -/

theorem not_mem_of_mem_splitOn {separator : Char} {text part : List Char}
    (member : part ∈ text.splitOn separator) : separator ∉ part := by
  induction text generalizing part with
  | nil => simp_all
  | cons c text ih =>
    rw [List.splitOn_cons_eq_if_modifyHead] at member
    split at member
    · rcases List.mem_cons.mp member with rfl | later
      · exact List.not_mem_nil
      · exact ih later
    · rename_i different
      obtain ⟨first, others, parts_eq⟩ :=
        List.exists_cons_of_ne_nil (List.splitOn_ne_nil separator text)
      rw [parts_eq] at ih member
      rcases List.mem_cons.mp member with rfl | later
      · have other : ¬ separator = c := fun same => different (by simp [same])
        simp [other, ih List.mem_cons_self]
      · exact ih (List.mem_cons_of_mem _ later)

theorem commentText_slashes (body : List Char) :
    commentText ('/' :: '/' :: '/' :: ' ' :: body) = String.ofList (trimEnd body) := rfl

theorem scan_comment {line : Nat} {comments : List String} {body rest : List Char}
    (one_line : '\n' ∉ body) (tidy : trimEnd body = body) :
    scan line true comments ("/// ".toList ++ body ++ '\n' :: rest) =
      scan (line + 1) true (comments ++ [String.ofList body]) rest := by
  have run : ('/' :: '/' :: ' ' :: body ++ '\n' :: rest).takeWhile (· ≠ '\n') =
      '/' :: '/' :: ' ' :: body := by
    apply takeWhile_stops _ (by decide)
    intro d member
    rw [decide_eq_true_eq]
    rintro rfl
    simp_all
  have front : frontExtent line '/' ('/' :: '/' :: ' ' :: body ++ '\n' :: rest) =
      .ok ⟨.lineComment, ('/' :: '/' :: ' ' :: body).length, 0⟩ := by
    rw [← congrArg List.length run]
    rfl
  have text_eq : "/// ".toList ++ body ++ '\n' :: rest =
      '/' :: ('/' :: '/' :: ' ' :: body) ++ '\n' :: rest := by simp
  rw [text_eq, scan_front front, ← scan_lineBreak line true _ rest, scan]
  simp only [Nat.add_zero]
  congr 1
  funext others
  rw [tokensFrom]
  simp only [if_true, Nat.add_zero, commentText_slashes, tidy]

theorem scan_comments {line : Nat} {comments bodies : List String} {rest : List Char}
    (lines : ∀ body ∈ bodies, '\n' ∉ body.toList ∧ trimEnd body.toList = body.toList) :
    scan line true comments (printLines (bodies.map ("/// " ++ ·)) ++ rest) =
      scan (line + bodies.length) true (comments ++ bodies) rest := by
  induction bodies generalizing line comments with
  | nil => simp [printLines]
  | cons body bodies ih =>
    obtain ⟨one_line, tidy⟩ := lines body List.mem_cons_self
    have text_eq : printLines ((body :: bodies).map ("/// " ++ ·)) ++ rest =
        "/// ".toList ++ body.toList ++
          '\n' :: (printLines (bodies.map ("/// " ++ ·)) ++ rest) := by
      simp [printLines]
    rw [text_eq, scan_comment one_line tidy, String.ofList_toList,
      ih fun other member => lines other (List.mem_cons_of_mem _ member), List.append_assoc,
      List.length_cons, List.singleton_append]
    congr 1
    omega

theorem commentParts_lines {comment : String} (tidy : IsTidy comment) :
    ∀ body ∈ commentParts comment, '\n' ∉ body.toList ∧ trimEnd body.toList = body.toList := by
  intro body member
  unfold commentParts at member
  split at member
  · cases member
  · obtain ⟨part, within, rfl⟩ := List.mem_map.mp member
    rw [String.toList_ofList]
    exact ⟨not_mem_of_mem_splitOn within, tidy part within⟩

/-! ## Tokens of declarations -/

mutual

/-- The tokens of a declaration that is printed from `line` on. -/
def Declaration.tokens (line : Nat) : Declaration → List Token
  | .node heading children =>
    let comments := commentParts heading.comment
    let own := line + comments.length
    match heading.kind with
    | .record | .sum =>
      lineTokens own true comments (typeWords heading) ++
        (allTokens (own + 1) children ++
          [(Word.mark closeBrace).token (own + 1 + (allLines children).length) true []])
    | .field => lineTokens own true comments (fieldWords heading)
    | .case => lineTokens own true comments (caseWords heading)
    | .other => []

def allTokens (line : Nat) : List Declaration → List Token
  | [] => []
  | declaration :: rest =>
    declaration.tokens line ++ allTokens (line + declaration.lines.length) rest

end

theorem printLines_append (first second : List String) :
    printLines (first ++ second) = printLines first ++ printLines second := by
  simp [printLines]

/-- A comment and the line below it. -/
theorem scan_headed {follow : Char → Bool} {comment first : String} {words : List Word}
    (tidy : IsTidy comment) (spells : Spells follow first.toList words)
    (ends : follow '\n' = true) (line : Nat) (rest : List Char) :
    scan line true []
        (printLines ((commentParts comment).map ("/// " ++ ·) ++ [first]) ++ rest) =
      (scan (line + (commentParts comment).length + 1) true [] rest).map
        (.behind (lineTokens (line + (commentParts comment).length) true (commentParts comment)
          words)) := by
  have text_eq : printLines ((commentParts comment).map ("/// " ++ ·) ++ [first]) ++ rest =
      printLines ((commentParts comment).map ("/// " ++ ·)) ++ (first.toList ++ '\n' :: rest) := by
    simp [printLines]
  rw [text_eq, scan_comments (commentParts_lines tidy), List.nil_append, spells.line ends]

theorem lines_type {heading : Heading} {children : List Declaration}
    (kind : heading.kind = .record ∨ heading.kind = .sum) :
    (Declaration.node heading children).lines =
      ((commentParts heading.comment).map ("/// " ++ ·) ++ [typeLine heading]) ++
        (allLines children ++ [closeBrace]) := by
  rcases kind with kind | kind <;> simp [Declaration.lines, kind]

theorem tokens_type {heading : Heading} {children : List Declaration} (line : Nat)
    (kind : heading.kind = .record ∨ heading.kind = .sum) :
    (Declaration.node heading children).tokens line =
      lineTokens (line + (commentParts heading.comment).length) true
          (commentParts heading.comment) (typeWords heading) ++
        (allTokens (line + (commentParts heading.comment).length + 1) children ++
          [(Word.mark closeBrace).token (line + (commentParts heading.comment).length + 1 +
            (allLines children).length) true []]) := by
  rcases kind with kind | kind <;> simp [Declaration.tokens, kind]

theorem scan_declaration {heading : Heading} {children : List Declaration}
    (canonical : heading.Canonical)
    (inner : ∀ line rest, scan line true [] (printDeclarations children ++ rest) =
      (scan (line + (allLines children).length) true [] rest).map
        (.behind (allTokens line children)))
    (line : Nat) (rest : List Char) :
    scan line true [] (printLines (Declaration.node heading children).lines ++ rest) =
      (scan (line + (Declaration.node heading children).lines.length) true [] rest).map
        (.behind ((Declaration.node heading children).tokens line)) := by
  cases canonical with
  | type kind word conforms modified tidy =>
    have first := spells_typeLine word conforms modified
    have brace : Spells (fun _ => true) closeBrace.toList [.mark closeBrace] :=
      spells_mark (by decide : '}' ∈ loneMarks)
    have text_eq : printLines (Declaration.node heading children).lines ++ rest =
        printLines ((commentParts heading.comment).map ("/// " ++ ·) ++ [typeLine heading]) ++
          (printDeclarations children ++ (closeBrace.toList ++ '\n' :: rest)) := by
      simp [lines_type kind, printLines, printDeclarations]
    have length_eq : line + (Declaration.node heading children).lines.length =
        line + (commentParts heading.comment).length + 1 + (allLines children).length + 1 := by
      simp only [lines_type kind, List.length_append, List.length_map, List.length_singleton]
      omega
    rw [text_eq, scan_headed tidy first rfl, inner, brace.line rfl, map_behind_append,
      map_behind_append, tokens_type line kind, length_eq, List.append_assoc]
    rfl
  | field kind word modified typed valued tidy =>
    have spells := spells_fieldLine word modified typed valued
    simpa [Declaration.lines, Declaration.tokens, kind, Nat.add_assoc] using
      scan_headed tidy spells rfl line rest
  | case kind word payload tidy =>
    have spells := spells_caseLine word payload
    simpa [Declaration.lines, Declaration.tokens, kind, Nat.add_assoc] using
      scan_headed tidy spells rfl line rest

theorem scan_declarations {declarations : List Declaration} (canonical : AllCanonical declarations)
    (line : Nat) (rest : List Char) :
    scan line true [] (printDeclarations declarations ++ rest) =
      (scan (line + (allLines declarations).length) true [] rest).map
        (.behind (allTokens line declarations)) := by
  induction declarations using Declaration.forest_induction generalizing line rest with
  | nil =>
    have nothing : ∀ scanned : Except SyntaxError TokenStream,
        scanned.map (TokenStream.behind []) = scanned := by
      intro scanned
      cases scanned <;> rfl
    rw [allTokens, nothing]
    rfl
  | cons heading children others inner after =>
    rw [AllCanonical, Declaration.Canonical] at canonical
    obtain ⟨⟨own, _, nested⟩, later⟩ := canonical
    have text_eq : printDeclarations (.node heading children :: others) ++ rest =
        printLines (Declaration.node heading children).lines ++
          (printDeclarations others ++ rest) := by
      rw [printDeclarations, allLines, printLines_append, List.append_assoc, printDeclarations]
    rw [text_eq, scan_declaration own (inner nested), after later, map_behind_append, allTokens,
      allLines, List.length_append, Nat.add_assoc]

theorem tokenize_printDeclarations {declarations : List Declaration}
    (canonical : AllCanonical declarations) :
    tokenize (printDeclarations declarations) =
      .ok ⟨allTokens 1 declarations, 1 + (allLines declarations).length, []⟩ := by
  have scanned := scan_declarations canonical 1 []
  have at_end : ∀ line, scan line true [] [] = .ok ⟨[], line, []⟩ := by
    intro line
    rw [scan, piecesFrom]
    rfl
  rw [tokenize_eq_scan, ← List.append_nil (printDeclarations declarations), scanned, at_end]
  simp [Except.map, TokenStream.behind]

end ApiHandbook.Source
