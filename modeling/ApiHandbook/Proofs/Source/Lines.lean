import ApiHandbook.Proofs.Source.Layout

/-!
# Lines of tokens

Two things are told by the text in front of a token: the line it stands on, which is short by the
line breaks that are escaped in earlier literals, and whether it starts a line, which takes a line
break outside block comments.
-/
namespace ApiHandbook.Source
open Text

variable {entries : List Entry} {text : List Char} {stream : TokenStream}
variable {line : Nat} {startsLine : Bool} {comments : List String}

/-! ## Line numbers -/

/-- The number of line breaks that are escaped in the lexemes of some entries. -/
def escapedBreaks : List Entry → Nat
  | [] => 0
  | entry :: entries => entry.escaped + escapedBreaks entries

theorem escapedBreaks_eq_zero :
    escapedBreaks entries = 0 ↔ ∀ entry ∈ entries, entry.escaped = 0 := by
  induction entries with
  | nil => simp [escapedBreaks]
  | cons entry entries ih => simp [escapedBreaks, ih]

theorem Layout.line_add_escaped (layout : Layout entries text)
    (success : scan line startsLine comments text = .ok stream)
    (tokens : entries.map Entry.token = stream.tokens) {earlier later : List Entry} {entry : Entry}
    (place : entries = earlier ++ entry :: later) :
    entry.token.line + escapedBreaks earlier = line + (entry.before earlier).count '\n' := by
  induction layout generalizing line startsLine comments stream earlier with
  | last => cases earlier <;> cases place
  | @entry first entries rest passed written begins _ ih =>
    obtain ⟨counted, others, onward, rfl, count, line_eq, -⟩ :=
      scan_entry passed written begins success (by rw [← tokens]; rfl)
    cases earlier with
    | nil =>
      cases place
      simpa [Entry.before, escapedBreaks] using line_eq
    | cons head earlier =>
      cases place
      have later_eq := ih onward (List.cons.inj tokens).2 rfl
      simp only [Entry.before, Entry.text, escapedBreaks, List.flatMap_cons, List.count_append]
        at later_eq ⊢
      omega

theorem Layout.endLine_add_escaped (layout : Layout entries text)
    (success : scan line startsLine comments text = .ok stream)
    (tokens : entries.map Entry.token = stream.tokens) :
    stream.endLine + escapedBreaks entries = line + text.count '\n' := by
  induction layout generalizing line startsLine comments stream with
  | last last =>
    obtain ⟨further, whole⟩ := last.scan line startsLine comments
    cases success.symm.trans whole
    rfl
  | @entry first entries rest passed written begins _ ih =>
    obtain ⟨counted, others, onward, rfl, count, line_eq, -⟩ :=
      scan_entry passed written begins success (by rw [← tokens]; rfl)
    have later_eq := ih onward (List.cons.inj tokens).2
    simp only [TokenStream.cons, Entry.text, escapedBreaks, List.count_append] at later_eq ⊢
    omega

theorem eq_iff_escaped {count : Nat} (told : line + escapedBreaks entries = 1 + count) :
    line = 1 + count ↔ ∀ entry ∈ entries, entry.escaped = 0 := by
  rw [← escapedBreaks_eq_zero]
  omega

/-- The line of a token is the one that the line breaks in front of its lexeme tell, less those that
a backslash escapes in literals. So it is the right one exactly if no literal in front of the token
has an escaped line break, and the same holds of the line that the text ends on. All other line
breaks count: in white space, in comments, in literals and in splices. -/
theorem tokenize_lines {text : List Char} {stream : TokenStream}
    (success : tokenize text = .ok stream) :
    (∃ entries, Layout entries text ∧ entries.map Entry.token = stream.tokens) ∧
    ∀ entries, Layout entries text → entries.map Entry.token = stream.tokens →
      (∀ earlier entry later, entries = earlier ++ entry :: later →
        (∃ after, text = entry.before earlier ++ (entry.lexeme ++ after)) ∧
        entry.token.line + escapedBreaks earlier = 1 + (entry.before earlier).count '\n' ∧
        (entry.token.line = 1 + (entry.before earlier).count '\n' ↔
          ∀ other ∈ earlier, other.escaped = 0)) ∧
      stream.endLine + escapedBreaks entries = 1 + text.count '\n' ∧
      (stream.endLine = 1 + text.count '\n' ↔ ∀ other ∈ entries, other.escaped = 0) := by
  rw [tokenize_eq_scan] at success
  refine ⟨exists_layout success, fun entries layout tokens => ?_⟩
  have ending := layout.endLine_add_escaped success tokens
  refine ⟨fun earlier entry later place => ?_, ending, eq_iff_escaped ending⟩
  have told := layout.line_add_escaped success tokens place
  exact ⟨layout.split place, told, eq_iff_escaped told⟩

/-- Line breaks in a nested comment, in a literal with three quotes and in a splice all count. -/
theorem lines_behind_comment_and_literal :
    let text := "a /* /* \n */ \n */ b \"\"\"x\n\\(f(\n\"y\"))\n\"\"\" c".toList
    ∃ stream, tokenize text = .ok stream ∧ stream.tokens.map Token.line = [1, 3, 3, 6] ∧
      ∃ entries, Layout entries text ∧ entries.map Entry.token = stream.tokens ∧
        stream.endLine + escapedBreaks entries = 1 + text.count '\n' := by
  intro text
  have lines : (tokenize text).toOption.map (·.tokens.map Token.line) = some [1, 3, 3, 6] := by
    decide +kernel
  cases success : tokenize text with
  | error fault =>
    rw [success] at lines
    cases lines
  | ok stream =>
    rw [success] at lines
    obtain ⟨⟨entries, layout, tokens⟩, told⟩ := tokenize_lines success
    exact ⟨stream, rfl, Option.some.inj lines, entries, layout, tokens,
      (told entries layout tokens).2.1⟩

/-- A literal with an escaped line break and a name behind it, which stands on the second line but
is taken to stand on the first. -/
theorem escaped_break_not_counted :
    let text := ['"', 'a', '\\', '\n', 'b', '"', ' ', 'c']
    ∃ stream earlier entry, tokenize text = .ok stream ∧ Layout (earlier ++ [entry]) text ∧
      (earlier ++ [entry]).map Entry.token = stream.tokens ∧ entry.token.text = "c" ∧
      entry.token.line = 1 ∧ (entry.before earlier).count '\n' = 1 ∧
      stream.endLine = 1 ∧ text.count '\n' = 1 := by
  have read : tokenize ['"', 'a', '\\', '\n', 'b', '"', ' ', 'c'] =
      .ok ⟨[⟨.string, "\"a\\\nb\"", 1, true, [], ["a\\\nb"]⟩, ⟨.name, "c", 1, false, [], []⟩],
        1, []⟩ := by decide +kernel
  have inner : LiteralBody (.text .single) [some 'a', some '\\', some '\n', some 'b'] 1
      ['a', '\\', '\n', 'b'] :=
    .char (by decide) (by decide) (by decide)
      (.escape (by decide) (.char (by decide) (by decide) (by decide) (.nil _)))
  have behind : Layout [⟨[' '], ['c'], ⟨.name, "c", 1, false, [], []⟩, 0⟩] [' ', 'c'] :=
    .entry (.space ' ' (.inl rfl) .nil) (.name rfl) rfl (.last (.inl .nil))
  refine ⟨_, [⟨[], ['"', 'a', '\\', '\n', 'b', '"'], _, 1⟩], ⟨[' '], ['c'], _, 0⟩, read, ?_, rfl,
    rfl, rfl, rfl, rfl, rfl⟩
  exact .entry .nil (.literal inner) rfl behind

/-! ## Starts of lines -/

theorem Layout.startsLine_iff (layout : Layout entries text)
    (success : scan line startsLine comments text = .ok stream)
    (tokens : entries.map Entry.token = stream.tokens) {earlier later : List Entry} {entry : Entry}
    (place : entries = earlier ++ entry :: later) :
    entry.token.startsLine = true ↔
      earlier = [] ∧ startsLine = true ∨ BreaksLine entry.gap := by
  induction layout generalizing line startsLine comments stream earlier with
  | last => cases earlier <;> cases place
  | @entry first entries rest passed written begins _ ih =>
    obtain ⟨counted, others, onward, rfl, -, -, flag⟩ :=
      scan_entry passed written begins success (by rw [← tokens]; rfl)
    cases earlier with
    | nil =>
      cases place
      simpa using flag
    | cons head earlier =>
      cases place
      have later_iff := ih onward (List.cons.inj tokens).2 rfl
      simpa using later_iff

theorem BreaksLine.mem {gap : List Char} (breaks : BreaksLine gap) : '\n' ∈ gap := by
  obtain ⟨front, back, -, -, rfl⟩ := breaks
  exact List.mem_append_right _ List.mem_cons_self

/-- The first token starts a line. Any other one starts a line if and only if a line break stands in
front of it outside the block comments of its gap. So this tells of a line break in the gap exactly
if one stands outside block comments whenever there is one at all. -/
theorem tokenize_line_starts {text : List Char} {stream : TokenStream}
    (success : tokenize text = .ok stream) :
    (∃ entries, Layout entries text ∧ entries.map Entry.token = stream.tokens) ∧
    ∀ entries, Layout entries text → entries.map Entry.token = stream.tokens →
      ∀ earlier entry later, entries = earlier ++ entry :: later →
        (earlier = [] → entry.token.startsLine = true) ∧
        (earlier ≠ [] →
          (entry.token.startsLine = true ↔ BreaksLine entry.gap) ∧
          ((entry.token.startsLine = true ↔ '\n' ∈ entry.gap) ↔
            ('\n' ∈ entry.gap → BreaksLine entry.gap))) := by
  rw [tokenize_eq_scan] at success
  refine ⟨exists_layout success, fun entries layout tokens earlier entry later place => ?_⟩
  have told := layout.startsLine_iff success tokens place
  refine ⟨fun first => told.mpr (.inl ⟨first, rfl⟩), fun others => ?_⟩
  have flag : entry.token.startsLine = true ↔ BreaksLine entry.gap := by
    rw [told, or_iff_right fun first => others first.1]
  refine ⟨flag, ?_⟩
  rw [flag]
  exact ⟨Iff.mpr, fun outside => ⟨BreaksLine.mem, outside⟩⟩

/-- Line breaks behind a line comment and beside a block comment. -/
theorem line_starts_around_comments :
    let text := "a b // c\n d /* \n */ \n e /* f */ g".toList
    ∃ stream, tokenize text = .ok stream ∧
      stream.tokens.map Token.startsLine = [true, false, true, true, false] ∧
      ∃ entries, Layout entries text ∧ entries.map Entry.token = stream.tokens ∧
        ∀ earlier entry later, entries = earlier ++ entry :: later → earlier ≠ [] →
          (entry.token.startsLine = true ↔ BreaksLine entry.gap) := by
  intro text
  have flags : (tokenize text).toOption.map (·.tokens.map Token.startsLine) =
      some [true, false, true, true, false] := by decide +kernel
  cases success : tokenize text with
  | error fault =>
    rw [success] at flags
    cases flags
  | ok stream =>
    rw [success] at flags
    obtain ⟨⟨entries, layout, tokens⟩, told⟩ := tokenize_line_starts success
    exact ⟨stream, rfl, Option.some.inj flags, entries, layout, tokens,
      fun earlier entry later place others =>
        ((told entries layout tokens earlier entry later place).2 others).1⟩

/-- A line break in the only comment between two names, the second of which is taken not to start a
line. -/
theorem break_in_comment_starts_no_line :
    let text := ['a', '/', '*', '\n', '*', '/', 'b']
    ∃ stream earlier entry, tokenize text = .ok stream ∧ Layout (earlier ++ [entry]) text ∧
      (earlier ++ [entry]).map Entry.token = stream.tokens ∧ earlier ≠ [] ∧
      '\n' ∈ entry.gap ∧ entry.token.startsLine = false := by
  have read : tokenize ['a', '/', '*', '\n', '*', '/', 'b'] =
      .ok ⟨[⟨.name, "a", 1, true, [], []⟩, ⟨.name, "b", 2, false, [], []⟩], 2, []⟩ := by
    decide +kernel
  have comment : Gap ['/', '*', '\n', '*', '/'] :=
    .blockComment ⟨['\n'], .char '\n' rfl .nil, rfl⟩ .nil
  have behind : Layout
      [⟨['/', '*', '\n', '*', '/'], ['b'], ⟨.name, "b", 2, false, [], []⟩, 0⟩]
      ['/', '*', '\n', '*', '/', 'b'] :=
    .entry comment (.name rfl) rfl (.last (.inl .nil))
  refine ⟨_, [⟨[], ['a'], _, 0⟩], ⟨['/', '*', '\n', '*', '/'], ['b'], _, 0⟩, read, ?_, rfl,
    List.cons_ne_nil _ _, ?_, rfl⟩
  · exact .entry .nil (.name rfl) rfl behind
  · decide

end ApiHandbook.Source
