import Mathlib.Data.List.Induction
import ApiHandbook.Source.Reading.Member
import ApiHandbook.Proofs.Source.Occurrences
import ApiHandbook.Proofs.Source.Printing

/-!
# Names that are read from a text

Every name in a tree that has been read from a text is a name as the text spells names: letters,
digits and underscores, and no mark. The reader takes names only from name tokens, and those are
cut from the text by what their characters are.
-/
namespace ApiHandbook.Source
open Schema Text

mutual

/-- A declaration with proper names, its own and all those nested in it. -/
def Declaration.Worded : Declaration → Prop
  | .node heading children => isWord heading.name = true ∧ AllWorded children

def AllWorded : List Declaration → Prop
  | [] => True
  | declaration :: rest => declaration.Worded ∧ AllWorded rest

end

theorem AllWorded.append {first second : List Declaration} (one : AllWorded first)
    (two : AllWorded second) : AllWorded (first ++ second) := by
  induction first with
  | nil => exact two
  | cons declaration rest ih =>
    obtain ⟨front, behind⟩ := one
    exact ⟨front, ih behind⟩

theorem AllWorded.of_mem {declarations : List Declaration} (worded : AllWorded declarations) :
    ∀ declaration ∈ declarations, declaration.Worded := by
  induction declarations with
  | nil => simp
  | cons first rest ih =>
    obtain ⟨front, behind⟩ := worded
    intro declaration listed
    rcases List.mem_cons.mp listed with rfl | later
    · exact front
    · exact ih behind declaration later

/-! ## Tokens -/

/-- Tokens whose names are names as a text spells them. -/
def WordedTokens (tokens : List Token) : Prop :=
  ∀ token ∈ tokens, token.kind = .name → isWord token.text = true

theorem WordedTokens.behind {tokens rest : List Token} (worded : WordedTokens tokens)
    (tail : rest <:+ tokens) : WordedTokens rest :=
  fun token listed => worded token (tail.subset listed)

theorem tokensFrom_worded {line : Nat} {text : List Char} {found : List Piece}
    (success : piecesFrom line text = .ok found) (startsLine : Bool) (comments : List String) :
    WordedTokens (tokensFrom line startsLine comments found).tokens := by
  induction length_eq : text.length using Nat.strongRecOn
    generalizing line text found startsLine comments with
  | _ size ih =>
    cases text with
    | nil =>
      rw [piecesFrom] at success
      cases success
      intro token listed
      cases listed
    | cons c rest =>
      obtain ⟨⟨kind, more, breaks⟩, others, front, behind, rfl⟩ := piecesFrom_cons success
      have shows := frontExtent_shows front
      dsimp only at shows behind
      have shorter : (rest.drop more).length < size := by
        rw [← length_eq, List.length_drop, List.length_cons]
        omega
      have later : ∀ startsLine comments,
          WordedTokens (tokensFrom (line + breaks) startsLine comments others).tokens :=
        fun startsLine comments => ih _ shorter behind startsLine comments rfl
      generalize c :: rest.take more = raw at shows ⊢
      have keep : ∀ token, (token.kind = .name → isWord token.text = true) →
          WordedTokens (token :: (tokensFrom (line + breaks) false [] others).tokens) := by
        intro token word other listed
        rcases List.mem_cons.mp listed with rfl | further
        · exact word
        · exact later false [] other further
      cases kind with
      | blank => exact later _ _
      | lineBreak => exact later _ _
      | blockComment => exact later _ _
      | lineComment => exact later _ _
      | number => exact keep _ (by simp)
      | mark => exact keep _ (by simp)
      | literal segments => exact keep _ (by simp)
      | name =>
        refine keep _ fun _ => ?_
        obtain ⟨word, identifier, rfl | rfl⟩ := shows
        · rw [isWord, nameText_of_identifier identifier, identifier]
        · rw [nameText_between_accents, isWord, nameText_of_identifier identifier, identifier]

theorem tokenize_worded {text : List Char} {stream : TokenStream}
    (success : tokenize text = .ok stream) : WordedTokens stream.tokens := by
  obtain ⟨found, cut, made⟩ := ok_of_bind success
  cases made
  exact tokensFrom_worded cut true []

/-! ## The reader -/

section Reader
variable {endLine : Nat} {tokens : List Token}

theorem acceptName?_word (worded : WordedTokens tokens) {name : Reading tokens Token}
    (accepted : acceptName? tokens = some name) : isWord name.value.text = true := by
  cases tokens with
  | nil => cases accepted
  | cons token rest =>
    rw [acceptName?] at accepted
    split at accepted
    · rename_i kind
      cases accepted
      exact worded token List.mem_cons_self kind
    · cases accepted

theorem expectName_word (worded : WordedTokens tokens) {name : Reading tokens Token}
    (expected : expectName endLine tokens = .ok name) : isWord name.value.text = true := by
  unfold expectName at expected
  split at expected
  · rename_i found accepted
    cases expected
    exact acceptName?_word worded accepted
  · cases expected

theorem readBinding_worded {modifiers : List String} {comment : String}
    (worded : WordedTokens tokens) {reading : Reading tokens (List Declaration)}
    (read : readBinding endLine modifiers comment tokens = .ok reading) :
    AllWorded reading.value := by
  obtain ⟨name, named, read⟩ := ok_of_bind read
  obtain ⟨shape, _, read⟩ := ok_of_bind read
  obtain ⟨value, _, read⟩ := ok_of_bind read
  obtain ⟨computed, _, made⟩ := ok_of_bind read
  cases made
  have word : ∀ text ∈ name.value.toList, isWord text = true := by
    unfold readBindingName at named
    split at named
    · rename_i found accepted
      cases named
      intro text listed
      cases List.mem_singleton.mp listed
      exact acceptName?_word worded accepted
    · split at named
      · obtain ⟨group, _, skipped⟩ := ok_of_bind named
        cases skipped
        nofun
      · cases named
  change AllWorded (if computed.value then [] else name.value.toList.map _)
  split
  · trivial
  · cases found : name.value with
    | none => trivial
    | some text => exact ⟨⟨word text (by simp [found]), trivial⟩, trivial⟩

theorem readBindings_worded {modifiers : List String} {comment : String}
    (worded : WordedTokens tokens) {reading : Reading tokens (List Declaration)}
    (read : readBindings endLine modifiers comment tokens = .ok reading) :
    AllWorded reading.value := by
  induction length_eq : tokens.length using Nat.strongRecOn generalizing tokens with
  | _ size ih =>
    rw [readBindings] at read
    obtain ⟨binding, first, read⟩ := ok_of_bind read
    have front := readBinding_worded worded first
    split at read
    · cases read
      exact front
    · rename_i comma accepted
      obtain ⟨further, rest, made⟩ := ok_of_bind read
      cases made
      have shorter : comma.rest.length < size := by
        rw [← length_eq]
        exact Nat.lt_trans comma.shorter binding.shorter
      exact front.append
        (ih _ shorter (worded.behind (comma.tail.trans binding.tail)) rest rfl)

theorem readCases_worded {comment : String} (worded : WordedTokens tokens)
    {reading : Reading tokens (List Declaration)}
    (read : readCases endLine comment tokens = .ok reading) : AllWorded reading.value := by
  induction length_eq : tokens.length using Nat.strongRecOn generalizing tokens comment with
  | _ size ih =>
    rw [readCases] at read
    obtain ⟨name, named, read⟩ := ok_of_bind read
    obtain ⟨parameters, _, read⟩ := ok_of_bind read
    obtain ⟨value, _, read⟩ := ok_of_bind read
    have word := expectName_word worded named
    dsimp only at read
    split at read
    · cases read
      exact ⟨⟨word, trivial⟩, trivial⟩
    · rename_i comma accepted
      obtain ⟨further, rest, made⟩ := ok_of_bind read
      cases made
      have tail := comma.tail.trans ((value.tail.trans parameters.tail).trans name.tail)
      have shorter : comma.rest.length < size := by
        have := comma.shorter
        have := (value.tail.trans parameters.tail).length_le
        have := name.shorter
        omega
      exact ⟨⟨word, trivial⟩, ih _ shorter (worded.behind tail) rest rfl⟩

theorem readTypeHeader_word (worded : WordedTokens tokens)
    {header : Reading tokens (String × List String)}
    (read : readTypeHeader endLine tokens = .ok header) : isWord header.value.1 = true := by
  obtain ⟨name, named, read⟩ := ok_of_bind read
  have word := expectName_word worded named
  dsimp only at read
  split at read
  · obtain ⟨parameters, _, made⟩ := ok_of_bind read
    cases made
    exact word
  · cases read
    exact word

theorem readType_worded {kind : DeclarationKind} {modifiers : List String} {comment : String}
    {line : Nat} (worded : WordedTokens tokens)
    (below : ∀ rest : List Token, rest <:+ tokens → rest.length < tokens.length →
      ∀ {body : Reading rest (List Declaration)}, readBody endLine rest = .ok body →
        AllWorded body.value)
    {reading : Reading tokens Declaration}
    (read : readType endLine kind modifiers comment line tokens = .ok reading) :
    reading.value.Worded := by
  rw [readType] at read
  obtain ⟨header, named, read⟩ := ok_of_bind read
  obtain ⟨start, _, read⟩ := ok_of_bind read
  obtain ⟨body, members, made⟩ := ok_of_bind read
  cases made
  have shorter := Nat.lt_trans start.shorter header.shorter
  exact ⟨readTypeHeader_word worded named, below _ (start.tail.trans header.tail) shorter members⟩

/-- A member that is a type has a shorter body, which is read by the same reader. -/
theorem readMember_worded (worded : WordedTokens tokens)
    (below : ∀ rest : List Token, rest <:+ tokens → rest.length < tokens.length →
      ∀ {body : Reading rest (List Declaration)}, readBody endLine rest = .ok body →
        AllWorded body.value)
    {more : tokens ≠ []} {reading : Reading tokens (List Declaration)}
    (read : readMember endLine tokens more = .ok reading) : AllWorded reading.value := by
  rw [readMember] at read
  obtain ⟨attributes, _, read⟩ := ok_of_bind read
  obtain ⟨modifiers, _, read⟩ := ok_of_bind read
  dsimp only at read
  split at read
  · cases read
    trivial
  · rename_i keyword rest at_keyword
    have front : keyword :: rest <:+ tokens := at_keyword ▸ modifiers.tail.trans attributes.tail
    have tail := (List.suffix_cons keyword rest).trans front
    have shorter : rest.length < tokens.length := front.length_le
    have type : ∀ {kind : DeclarationKind} {comment : String} {found : Reading rest Declaration},
        readType endLine kind modifiers.value comment keyword.line rest = .ok found →
          AllWorded [found.value] := by
      intro kind comment found typed
      refine ⟨readType_worded (worded.behind tail) ?_ typed, trivial⟩
      intro inner inside less body members
      exact below inner (inside.trans tail) (Nat.lt_trans less shorter) members
    split at read
    · obtain ⟨group, _, made⟩ := ok_of_bind read
      cases made
      trivial
    · split at read
      · cases read
        trivial
      · split at read
        · obtain ⟨found, typed, made⟩ := ok_of_bind read
          cases made
          exact type typed
        · obtain ⟨found, typed, made⟩ := ok_of_bind read
          cases made
          exact type typed
        · obtain ⟨found, bound, made⟩ := ok_of_bind read
          cases made
          exact readBindings_worded (worded.behind tail) bound
        · obtain ⟨found, cased, made⟩ := ok_of_bind read
          cases made
          exact readCases_worded (worded.behind tail) cased
        · obtain ⟨skipped, _, made⟩ := ok_of_bind read
          cases made
          trivial
        · obtain ⟨skipped, _, made⟩ := ok_of_bind read
          cases made
          trivial
        · cases read
          trivial
        · cases read
          trivial

theorem readBody_worded (worded : WordedTokens tokens) {reading : Reading tokens (List Declaration)}
    (read : readBody endLine tokens = .ok reading) : AllWorded reading.value := by
  induction length_eq : tokens.length using Nat.strongRecOn generalizing tokens with
  | _ size ih =>
    have below : ∀ rest : List Token, rest <:+ tokens → rest.length < tokens.length →
        ∀ {body : Reading rest (List Declaration)}, readBody endLine rest = .ok body →
          AllWorded body.value :=
      fun rest tail less _ members => ih _ (length_eq ▸ less) (worded.behind tail) members rfl
    rw [readBody] at read
    split at read
    · cases read
      trivial
    · split at read
      · cases read
      · obtain ⟨member, first, read⟩ := ok_of_bind read
        obtain ⟨further, rest, made⟩ := ok_of_bind read
        cases made
        exact (readMember_worded worded below first).append
          (below _ member.tail member.shorter rest)

theorem readDeclarations_worded (worded : WordedTokens tokens) {declarations : List Declaration}
    (read : readDeclarations endLine tokens = .ok declarations) : AllWorded declarations := by
  induction length_eq : tokens.length using Nat.strongRecOn generalizing tokens declarations with
  | _ size ih =>
    rw [readDeclarations] at read
    split at read
    · cases read
      trivial
    · split at read
      · cases read
      · obtain ⟨member, first, read⟩ := ok_of_bind read
        obtain ⟨further, rest, made⟩ := ok_of_bind read
        cases made
        refine (readMember_worded worded ?_ first).append
          (ih _ (length_eq ▸ member.shorter) (worded.behind member.tail) rest rfl)
        intro inner tail _ body members
        exact readBody_worded (worded.behind tail) members

end Reader

theorem parse_worded {text : List Char} {source : List Declaration}
    (parsed : parse text = .ok source) : AllWorded source := by
  obtain ⟨stream, tokenized, read⟩ := ok_of_bind parsed
  exact readDeclarations_worded (tokenize_worded tokenized) read

/-! ## Qualified names -/

/-- A text of name characters. -/
def IsNameText (text : String) : Prop := ∀ c ∈ text.toList, isNameChar c = true

theorem isNameText_of_isWord {text : String} (word : isWord text = true) : IsNameText text :=
  isIdentifier_isNameChar word

theorem isNameText_qualifiedName {scope : Option String} {name : String}
    (outer : ∀ text ∈ scope, IsNameText text) (own : IsNameText name) :
    IsNameText (qualifiedName scope name) := by
  cases scope with
  | none => exact own
  | some scope =>
    rw [qualifiedName]
    split
    · exact own
    · intro c listed
      simp only [String.toList_append, List.mem_append] at listed
      rcases listed with (inside | underscore) | last
      · exact outer scope rfl c inside
      · cases List.mem_singleton.mp underscore
        decide
      · exact own c last

theorem isNameText_scopeOf {around : List Heading}
    (words : ∀ heading ∈ around, isWord heading.name = true) :
    ∀ text ∈ scopeOf around, IsNameText text := by
  induction around using List.reverseRecOn with
  | nil => nofun
  | append_singleton outer heading ih =>
    rw [scopeOf_append]
    rintro text ⟨⟩
    refine isNameText_qualifiedName (ih fun other listed => words other (by simp [listed])) ?_
    exact isNameText_of_isWord (words heading (by simp))

/-- What is read below proper names has proper names around it, itself and below. -/
theorem occurrence_worded {declarations : List Declaration} {around : List Heading}
    (worded : AllWorded declarations) (outer : ∀ heading ∈ around, isWord heading.name = true)
    {type : Occurrence} (listed : type ∈ allOccurrences around declarations) :
    IsNameText type.name ∧ AllWorded type.children := by
  induction declarations using Declaration.forest_induction generalizing around with
  | nil => cases listed
  | cons heading children rest inner after =>
    obtain ⟨⟨word, below⟩, behind⟩ := worded
    rcases mem_allOccurrences_cons.mp listed with ⟨_, rfl | nested⟩ | later
    · exact ⟨isNameText_qualifiedName (isNameText_scopeOf outer) (isNameText_of_isWord word), below⟩
    · refine inner below ?_ nested
      intro other member
      rcases List.mem_append.mp member with old | own
      · exact outer other old
      · rw [List.mem_singleton.mp own]
        exact word
    · exact after behind outer later

theorem fieldHeadings_word {children : List Declaration} (worded : AllWorded children) :
    ∀ field ∈ Declaration.fieldHeadings children, isWord field.name = true := by
  intro field listed
  obtain ⟨⟨heading, nested⟩, member, rfl⟩ := List.mem_map.mp listed
  exact (worded.of_mem _ (List.mem_of_mem_filter member)).1

end ApiHandbook.Source
