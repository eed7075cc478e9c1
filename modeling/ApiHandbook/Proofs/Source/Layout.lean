import ApiHandbook.Proofs.Source.Gaps
import ApiHandbook.Proofs.Source.Words

/-!
# Layouts

The layout of a text gives for each token its lexeme and the gap in front of it. A text that can be
tokenized has a layout with its tokens, and whatever layout with these tokens is given, scanning
goes along it.
-/
namespace ApiHandbook.Source
open Text

def Token.word (token : Token) : Word := ⟨token.kind, token.text, token.segments⟩

/-! ## One step of scanning -/

/-- What a text that is scanned with success begins with. -/
inductive Begins (line : Nat) (startsLine : Bool) (comments : List String) (stream : TokenStream) :
    List Char → Prop
  | gap {gap after : List Char} {next : Nat} {flag : Bool} {further : List String}
      (passed : Gap gap) (nonempty : gap ≠ [])
      (onward : scan next flag further after = .ok stream) :
      Begins line startsLine comments stream (gap ++ after)
  | lastComment {body : List Char} (one_line : '\n' ∉ body) (none : stream.tokens = []) :
      Begins line startsLine comments stream ('/' :: '/' :: body)
  | token {word : Word} {lexeme after : List Char} {counted escaped : Nat} {others : TokenStream}
      (written : WrittenAs word lexeme escaped)
      (count : counted + escaped = lexeme.count '\n')
      (begins : beginsToken (lexeme ++ after) = true)
      (onward : scan (line + counted) false [] after = .ok others)
      (kept : stream = others.cons (word.token line startsLine comments)) :
      Begins line startsLine comments stream (lexeme ++ after)

theorem scan_begins {line : Nat} {startsLine : Bool} {comments : List String} {c : Char}
    {rest : List Char} {stream : TokenStream}
    (success : scan line startsLine comments (c :: rest) = .ok stream) :
    Begins line startsLine comments stream (c :: rest) := by
  obtain ⟨found, cut, made⟩ := ok_of_map success
  obtain ⟨⟨kind, more, breaks⟩, others, front, behind, rfl⟩ := piecesFrom_cons cut
  have shows := frontExtent_shows front
  have onward : ∀ flag further, scan (line + breaks) flag further (rest.drop more) =
      .ok (tokensFrom (line + breaks) flag further others) :=
    fun flag further => by rw [scan, behind]; rfl
  have split : c :: rest = (c :: rest.take more) ++ rest.drop more := by simp
  cases kept : Piece.word? ⟨kind, c :: rest.take more, breaks⟩ with
  | some word =>
    obtain ⟨begins, escaped, written, count⟩ := frontExtent_written front kept
    rw [split] at begins ⊢
    rw [tokensFrom_word kept] at made
    exact .token written count begins (onward false []) made.symm
  | none =>
    rw [split]
    have nonempty : c :: rest.take more ≠ [] := List.cons_ne_nil _ _
    dsimp only at shows made
    generalize c :: rest.take more = raw at shows made nonempty
    subst made
    cases kind with
    | number | name | mark | literal => cases kept
    | blank => exact .gap (gap_of_blanks shows) nonempty (onward startsLine comments)
    | lineBreak => exact .gap (shows ▸ .space '\n' (.inr rfl) .nil) nonempty (onward true comments)
    | blockComment =>
      have comment := Gap.blockComment shows .nil
      rw [List.append_nil] at comment
      exact .gap comment nonempty (onward startsLine comments)
    | lineComment =>
      obtain ⟨body, rfl, one_line, ends | ⟨further, continues⟩⟩ := shows
      · rw [ends, piecesFrom] at behind
        cases behind
        rw [ends, List.append_nil]
        exact .lastComment one_line rfl
      · -- The break that ends the comment is a piece of its own but belongs to the same gap.
        have passed := onward startsLine
          (if startsLine then comments ++ [commentText ('/' :: '/' :: body)] else comments)
        rw [continues, scan_lineBreak] at passed
        rw [continues, List.append_cons]
        exact .gap (.lineComment body one_line .nil) (List.cons_ne_nil _ _) passed

theorem Gap.not_beginsToken {gap : List Char} (passed : Gap gap) (nonempty : gap ≠ [])
    (after : List Char) : beginsToken (gap ++ after) = false := by
  induction passed with
  | nil => exact absurd rfl nonempty
  | space c white _ _ => rcases white with blank | rfl <;> simp_all [beginsToken]
  | lineComment => simp [beginsToken]
  | blockComment nested _ _ =>
    obtain ⟨body, -, rfl⟩ := nested
    simp [beginsToken]

theorem scan_at_token {line : Nat} {startsLine : Bool} {comments : List String} {text : List Char}
    {stream : TokenStream} (success : scan line startsLine comments text = .ok stream)
    (begins : beginsToken text = true) :
    ∃ word lexeme after counted escaped others, text = lexeme ++ after ∧
      WrittenAs word lexeme escaped ∧ counted + escaped = lexeme.count '\n' ∧
      scan (line + counted) false [] after = .ok others ∧
      stream = others.cons (word.token line startsLine comments) := by
  cases text with
  | nil => cases begins
  | cons c rest =>
    generalize whole : c :: rest = text at success begins
    have first := scan_begins (whole.symm ▸ success)
    rw [whole] at first
    cases first with
    | gap passed nonempty => rw [passed.not_beginsToken nonempty] at begins; cases begins
    | lastComment => cases begins
    | token written count _ onward kept =>
      exact ⟨_, _, _, _, _, _, rfl, written, count, onward, kept⟩

/-! ## Layouts -/

/-- A token with its lexeme, the gap in front of it and the number of line breaks that are escaped
in it. -/
structure Entry where
  gap : List Char
  lexeme : List Char
  token : Token
  escaped : Nat

def Entry.text (entry : Entry) : List Char := entry.gap ++ entry.lexeme

/-- The tokens of a text with everything that stands between them. -/
inductive Layout : List Entry → List Char → Prop
  | last {gap : List Char} (passed : LastGap gap) : Layout [] gap
  | entry {entry : Entry} {entries : List Entry} {rest : List Char} (passed : Gap entry.gap)
      (written : WrittenAs entry.token.word entry.lexeme entry.escaped)
      (begins : beginsToken (entry.lexeme ++ rest) = true) (behind : Layout entries rest) :
      Layout (entry :: entries) (entry.text ++ rest)

theorem Layout.written {entries : List Entry} {text : List Char} (layout : Layout entries text) :
    ∀ entry ∈ entries, WrittenAs entry.token.word entry.lexeme entry.escaped := by
  induction layout with
  | last => exact fun entry none => absurd none List.not_mem_nil
  | entry _ written _ _ ih => exact List.forall_mem_cons.mpr ⟨written, ih⟩

theorem Layout.behindGap {entries : List Entry} {gap text : List Char} (passed : Gap gap)
    (layout : Layout entries text) :
    ∃ others, Layout others (gap ++ text) ∧ others.map Entry.token = entries.map Entry.token := by
  cases layout with
  | last last => exact ⟨[], .last (last.behind passed), rfl⟩
  | @entry first entries rest further written begins behind =>
    have wider : Layout ({ first with gap := gap ++ first.gap } :: entries)
        ((gap ++ first.gap) ++ first.lexeme ++ rest) :=
      .entry (passed.append further) written begins behind
    rw [List.append_assoc gap, List.append_assoc gap] at wider
    exact ⟨_, wider, rfl⟩

theorem exists_layout {line : Nat} {startsLine : Bool} {comments : List String} {text : List Char}
    {stream : TokenStream} (success : scan line startsLine comments text = .ok stream) :
    ∃ entries, Layout entries text ∧ entries.map Entry.token = stream.tokens := by
  induction length_eq : text.length using Nat.strongRecOn
    generalizing line startsLine comments text stream with
  | _ size ih =>
    cases text with
    | nil =>
      rw [scan, piecesFrom] at success
      cases success
      exact ⟨[], .last (.inl .nil), rfl⟩
    | cons c rest =>
      have first := scan_begins success
      generalize c :: rest = text at first length_eq
      cases first with
      | @gap gap after _ _ _ passed nonempty onward =>
        have shorter : after.length < size := by
          have := List.length_pos_iff.mpr nonempty
          rw [← length_eq, List.length_append]
          omega
        obtain ⟨entries, layout, tokens⟩ := ih _ shorter onward rfl
        obtain ⟨others, wider, same⟩ := layout.behindGap passed
        exact ⟨others, wider, same.trans tokens⟩
      | lastComment one_line none =>
        exact ⟨[], .last (.inr ⟨[], _, .nil, one_line, rfl⟩), none.symm⟩
      | @token word lexeme after counted escaped others written count begins onward kept =>
        have shorter : after.length < size := by
          have := List.length_pos_iff.mpr written.nonempty
          rw [← length_eq, List.length_append]
          omega
        obtain ⟨entries, layout, tokens⟩ := ih _ shorter onward rfl
        refine ⟨⟨[], lexeme, word.token line startsLine comments, escaped⟩ :: entries,
          .entry .nil written begins layout, ?_⟩
        rw [kept, TokenStream.cons, List.map_cons, tokens]

/-- An entry is what is read at its place, so the line of its token and whether it starts one follow
from the gap, and reading goes on behind its lexeme. -/
theorem scan_entry {entry : Entry} {rest : List Char} {line : Nat} {startsLine : Bool}
    {comments : List String} {stream : TokenStream} (passed : Gap entry.gap)
    (written : WrittenAs entry.token.word entry.lexeme entry.escaped)
    (begins : beginsToken (entry.lexeme ++ rest) = true)
    (success : scan line startsLine comments (entry.text ++ rest) = .ok stream)
    (first : stream.tokens.head? = some entry.token) :
    ∃ counted others, scan (entry.token.line + counted) false [] rest = .ok others ∧
      stream = others.cons entry.token ∧
      counted + entry.escaped = entry.lexeme.count '\n' ∧
      entry.token.line = line + entry.gap.count '\n' ∧
      (entry.token.startsLine = true ↔ startsLine = true ∨ BreaksLine entry.gap) := by
  obtain ⟨next, further, onward, flag⟩ := passed.scan line startsLine comments
  rw [Entry.text, List.append_assoc, onward] at success
  obtain ⟨word, lexeme, after, counted, escaped, others, split, other_written, count, behind,
    rfl⟩ := scan_at_token success begins
  have token_eq : word.token (line + entry.gap.count '\n') next further = entry.token :=
    Option.some.inj first
  obtain rfl : word = entry.token.word := by rw [← token_eq]; rfl
  -- The same word at the same place, so the lexeme that was read is that of the entry.
  have lexeme_eq : lexeme = entry.lexeme := (written.lexeme_unique other_written split).symm
  have escaped_eq : escaped = entry.escaped := other_written.escaped_unique written
  have rest_eq : after = rest := by
    rw [lexeme_eq] at split
    exact (List.append_cancel_left split).symm
  rw [rest_eq] at behind
  rw [lexeme_eq, escaped_eq] at count
  have line_eq : entry.token.line = line + entry.gap.count '\n' := by rw [← token_eq]; rfl
  have flag_eq : entry.token.startsLine = next := by rw [← token_eq]; rfl
  refine ⟨counted, others, line_eq ▸ behind, by rw [token_eq], count, line_eq, flag_eq ▸ flag⟩

/-- The text in front of the lexeme of an entry. -/
def Entry.before (earlier : List Entry) (entry : Entry) : List Char :=
  earlier.flatMap Entry.text ++ entry.gap

theorem Layout.split {entries : List Entry} {text : List Char} (layout : Layout entries text)
    {earlier later : List Entry} {entry : Entry} (place : entries = earlier ++ entry :: later) :
    ∃ after, text = entry.before earlier ++ (entry.lexeme ++ after) := by
  induction layout generalizing earlier with
  | last => cases earlier <;> cases place
  | @entry first entries rest _ _ _ _ ih =>
    cases earlier with
    | nil =>
      cases place
      exact ⟨rest, by simp [Entry.before, Entry.text]⟩
    | cons head earlier =>
      cases place
      obtain ⟨after, rfl⟩ := ih rfl
      exact ⟨after, by simp [Entry.before]⟩

end ApiHandbook.Source
