import ApiHandbook.Proofs.Source.Layout

/-!
# Respacing

The texts of tokens, put together again with white space and comments between them, give these
tokens once more: a token is told by its own text, and a gap behind it says nothing.
-/
namespace ApiHandbook.Source
open Text

/-- White space, and further gaps behind it. -/
def IsSeparator (separator : List Char) : Prop :=
  ∃ c gap, separator = c :: gap ∧ (isInlineBlank c = true ∨ c = '\n') ∧ Gap gap

/-- The texts of tokens, without grave accents, with separators between them. -/
inductive Respaced : List Token → List Char → Prop
  | none : Respaced [] []
  | last (token : Token) : Respaced [token] token.text.toList
  | cons (token : Token) {next : Token} {tokens : List Token} {separator rest : List Char}
      (apart : IsSeparator separator) (behind : Respaced (next :: tokens) rest) :
      Respaced (token :: next :: tokens) (token.text.toList ++ (separator ++ rest))

theorem IsSeparator.gap {separator : List Char} (apart : IsSeparator separator) :
    Gap separator := by
  obtain ⟨c, gap, rfl, white, passed⟩ := apart
  exact .space c white passed

theorem IsSeparator.setOff {separator : List Char} (apart : IsSeparator separator)
    (rest : List Char) : SetOff (separator ++ rest) := by
  obtain ⟨c, gap, rfl, white, -⟩ := apart
  exact setOff_cons white (gap ++ rest)

/-- A token is read off its own text and what comes next is scanned on. -/
theorem scan_token_text {token : Token} {lexeme after : List Char} {escaped : Nat}
    (written : WrittenAs token.word lexeme escaped) (apart : SetOff after) (line : Nat)
    (startsLine : Bool) (comments : List String) {others : List Word}
    (onward : ∀ line, ∃ found, scan line false [] after = .ok found ∧
      found.tokens.map Token.word = others) :
    ∃ found, scan line startsLine comments (token.text.toList ++ after) = .ok found ∧
      found.tokens.map Token.word = token.word :: others := by
  obtain ⟨next, read⟩ := written.unaccented.scan line startsLine comments apart
  obtain ⟨found, behind, words⟩ := onward next
  change scan line startsLine comments (token.text.toList ++ after) = _ at read
  rw [read, behind]
  exact ⟨_, rfl, congrArg (token.word :: ·) words⟩

theorem Respaced.scan {tokens : List Token} {text : List Char} (respaced : Respaced tokens text)
    (written : ∀ token ∈ tokens, ∃ lexeme escaped, WrittenAs token.word lexeme escaped) (line : Nat)
    (startsLine : Bool) (comments : List String) :
    ∃ found, Source.scan line startsLine comments text = .ok found ∧
      found.tokens.map Token.word = tokens.map Token.word := by
  have ending : ∀ line startsLine comments, ∃ found,
      Source.scan line startsLine comments [] = .ok found ∧ found.tokens.map Token.word = [] := by
    intro line startsLine comments
    obtain ⟨further, whole⟩ := LastGap.scan (.inl .nil) line startsLine comments
    exact ⟨_, whole, rfl⟩
  induction respaced generalizing line startsLine comments with
  | none => exact ending line startsLine comments
  | last token =>
    obtain ⟨lexeme, escaped, shape⟩ := written token List.mem_cons_self
    have read := scan_token_text shape setOff_nil line startsLine comments
      fun line => ending line false []
    rwa [List.append_nil] at read
  | cons token apart _ ih =>
    obtain ⟨lexeme, escaped, shape⟩ := written token List.mem_cons_self
    apply scan_token_text shape (apart.setOff _)
    intro line
    obtain ⟨flag, further, passed, -⟩ := apart.gap.scan line false []
    rw [passed]
    exact ih (fun other member => written other (List.mem_cons_of_mem _ member)) _ flag further

/-- Respacing does not change tokens: put together with any separators between them, the texts of
the tokens of a text can be tokenized and give tokens of the same kinds, with the same texts and the
same segments, in the same order. -/
theorem tokenize_respaced {text other : List Char} {stream : TokenStream}
    (success : tokenize text = .ok stream) (respaced : Respaced stream.tokens other) :
    ∃ found, tokenize other = .ok found ∧
      found.tokens.map Token.word = stream.tokens.map Token.word := by
  rw [tokenize_eq_scan] at success ⊢
  obtain ⟨entries, layout, tokens⟩ := exists_layout success
  apply respaced.scan
  intro token member
  rw [← tokens] at member
  obtain ⟨entry, listed, rfl⟩ := List.mem_map.mp member
  exact ⟨entry.lexeme, entry.escaped, layout.written entry listed⟩

/-- A name between grave accents, a number in front of a name, a mark of three points and a literal,
first without any white space and then with a line comment and a nested comment. -/
theorem number_before_name_respaced :
    let text := "\x60x\x601e...\"s\"".toList
    let other := "x // y\n1 e\n/* /* */ */... \"s\"".toList
    ∃ stream found, tokenize text = .ok stream ∧ tokenize other = .ok found ∧
      stream.tokens.map Token.text = ["x", "1", "e", "...", "\"s\""] ∧
      found.tokens.map Token.word = stream.tokens.map Token.word := by
  intro text other
  have read : tokenize text =
      .ok ⟨[⟨.name, "x", 1, true, [], []⟩, ⟨.number, "1", 1, false, [], []⟩,
        ⟨.name, "e", 1, false, [], []⟩, ⟨.mark, "...", 1, false, [], []⟩,
        ⟨.string, "\"s\"", 1, false, [], ["s"]⟩], 1, []⟩ := by decide +kernel
  have space : IsSeparator [' '] := ⟨' ', [], rfl, .inl rfl, .nil⟩
  have line : IsSeparator " // y\n".toList :=
    ⟨' ', _, rfl, .inl rfl, .lineComment [' ', 'y'] (by decide) .nil⟩
  have comment : IsSeparator "\n/* /* */ */".toList := by
    refine ⟨'\n', _, rfl, .inr rfl, .blockComment ⟨" /* */ ".toList, ?_, rfl⟩ .nil⟩
    exact .char ' ' rfl (.comment (.char ' ' rfl .nil) (.char ' ' rfl .nil))
  have respaced := Respaced.cons ⟨.name, "x", 1, true, [], []⟩ line
    (.cons ⟨.number, "1", 1, false, [], []⟩ space
      (.cons ⟨.name, "e", 1, false, [], []⟩ comment
        (.cons ⟨.mark, "...", 1, false, [], []⟩ space
          (.last ⟨.string, "\"s\"", 1, false, [], ["s"]⟩))))
  obtain ⟨found, again, words⟩ := tokenize_respaced read respaced
  exact ⟨_, found, read, again, rfl, words⟩

end ApiHandbook.Source
