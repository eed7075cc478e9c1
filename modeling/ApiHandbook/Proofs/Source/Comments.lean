import Mathlib.Data.List.GetD
import ApiHandbook.Proofs.Source.GapComments
import ApiHandbook.Proofs.Source.Lines

/-!
# Line comments

The line comments that lead up to a token are kept with it, in their order. A comment that is alone
on its line leads up to the next token or to the end of the text; one that stands beside the token
in front of it leads up to nothing.
-/
namespace ApiHandbook.Source
open Text

/-! ## The comments of a text -/

/-- The comment stands behind some tokens, in front of the next one: outside literals, block
comments and other line comments. Its line ends behind it. -/
def LineComment.Follows (earlier : List Entry) (gap text : List Char) (comment : LineComment) :
    Prop :=
  comment.before = earlier.flatMap Entry.text ++ gap ∧ Gap gap ∧ '\n' ∉ comment.body ∧ ∃ after,
    text = comment.before ++ ('/' :: '/' :: comment.body ++ after) ∧ ∀ c ∈ after.head?, c = '\n'

/-- Nothing but white space stands in front of the comment on its line. -/
def LineComment.OnOwnLine (comment : LineComment) : Prop :=
  ∃ above white, comment.before = above ++ white ∧ (∀ c ∈ above.getLast?, c = '\n') ∧
    ∀ c ∈ white, isBlank c = true ∧ c ≠ '\n'

section
variable {entry : Entry} {entries earlier : List Entry} {gap text rest : List Char}
variable {comment : LineComment}

theorem follows_nil :
    comment.Follows [] gap text ↔ comment.before = gap ∧ comment.StandsIn text := by
  rw [LineComment.Follows, LineComment.StandsIn, List.flatMap_nil, List.nil_append]
  constructor
  · rintro ⟨rfl, stands⟩
    exact ⟨rfl, stands⟩
  · rintro ⟨rfl, stands⟩
    exact ⟨rfl, stands⟩

theorem follows_cons :
    comment.Follows (entry :: earlier) gap (entry.text ++ rest) ↔
      ∃ inner : LineComment, comment = inner.behind entry.text ∧
        inner.Follows earlier gap rest := by
  obtain ⟨before, body⟩ := comment
  constructor
  · rintro ⟨place, passed, one_line, after, split, ends⟩
    dsimp only at place one_line split
    rw [List.flatMap_cons, List.append_assoc] at place
    rw [place, List.append_assoc] at split
    exact ⟨⟨_, body⟩, by rw [place]; rfl, rfl, passed, one_line, after,
      List.append_cancel_left split, ends⟩
  · rintro ⟨inner, ⟨⟩, place, passed, one_line, after, rfl, ends⟩
    refine ⟨?_, passed, one_line, after, ?_, ends⟩
    · rw [List.flatMap_cons, List.append_assoc, ← place]
    · rw [List.append_assoc]

/-- No comment with only a gap in front of it stands behind a token. -/
theorem not_follows_of_standsIn (passed : Gap entry.gap)
    (begins : beginsToken (entry.lexeme ++ rest) = true) (nonempty : entry.lexeme ≠ [])
    (stands : comment.StandsIn (entry.text ++ rest)) :
    ¬ comment.Follows (entry :: earlier) gap (entry.text ++ rest) := by
  rw [follows_cons]
  rintro ⟨inner, rfl, -, -, -, after, rfl, -⟩
  have whole : Gap (entry.gap ++ (entry.lexeme ++ inner.before)) := by
    have := stands.1
    rwa [LineComment.behind, Entry.text, List.append_assoc] at this
  have behind := passed.behindGap whole
  rw [← List.append_assoc, behind.not_beginsToken (by simp [nonempty])] at begins
  cases begins

/-- A comment stands in one gap only. -/
theorem Layout.follows_unique (layout : Layout entries text) {later others further : List Entry}
    {other_gap : List Char} (place : entries = earlier ++ later)
    (other_place : entries = others ++ further) (follows : comment.Follows earlier gap text)
    (other_follows : comment.Follows others other_gap text) :
    earlier = others ∧ gap = other_gap := by
  induction layout generalizing earlier others comment with
  | last =>
    obtain ⟨rfl, rfl⟩ := List.append_eq_nil_iff.mp place.symm
    obtain ⟨rfl, rfl⟩ := List.append_eq_nil_iff.mp other_place.symm
    exact ⟨rfl, (follows_nil.mp follows).1.symm.trans (follows_nil.mp other_follows).1⟩
  | @entry first entries rest passed written begins _ ih =>
    cases earlier with
    | nil =>
      cases others with
      | nil => exact ⟨rfl, (follows_nil.mp follows).1.symm.trans (follows_nil.mp other_follows).1⟩
      | cons head others =>
        cases other_place
        exact absurd other_follows
          (not_follows_of_standsIn passed begins written.nonempty (follows_nil.mp follows).2)
    | cons head earlier =>
      obtain ⟨rfl, tail_eq⟩ := List.cons.inj place
      cases others with
      | nil =>
        exact absurd follows
          (not_follows_of_standsIn passed begins written.nonempty (follows_nil.mp other_follows).2)
      | cons head others =>
        obtain ⟨rfl, other_tail_eq⟩ := List.cons.inj other_place
        obtain ⟨inner, rfl, inner_follows⟩ := follows_cons.mp follows
        obtain ⟨other, same, other_inner⟩ := follows_cons.mp other_follows
        obtain rfl := LineComment.behind_injective _ same
        obtain ⟨rfl, rfl⟩ := ih tail_eq other_tail_eq inner_follows other_inner
        exact ⟨rfl, rfl⟩

/-- The comment follows the first `place` tokens, and a line is started between them. -/
def LineComment.LeadsAt (startsLine : Bool) (entries : List Entry) (text : List Char) (place : Nat)
    (comment : LineComment) : Prop :=
  ∃ earlier later gap, entries = earlier ++ later ∧ earlier.length = place ∧
    comment.Follows earlier gap text ∧ (earlier = [] ∧ startsLine = true ∨ BreaksLine gap)

theorem leadsAt_zero {startsLine : Bool} :
    comment.LeadsAt startsLine entries text 0 ↔ comment.Leads startsLine text := by
  constructor
  · rintro ⟨earlier, later, gap, -, empty, follows, starts⟩
    obtain rfl := List.length_eq_zero_iff.mp empty
    obtain ⟨rfl, stands⟩ := follows_nil.mp follows
    exact ⟨stands, starts.imp And.right id⟩
  · rintro ⟨stands, starts⟩
    exact ⟨[], entries, comment.before, rfl, rfl, follows_nil.mpr ⟨rfl, stands⟩,
      starts.imp (.intro rfl) id⟩

theorem leadsAt_succ {startsLine : Bool} {place : Nat} :
    comment.LeadsAt startsLine (entry :: entries) (entry.text ++ rest) (place + 1) ↔
      ∃ inner : LineComment, comment = inner.behind entry.text ∧
        inner.LeadsAt false entries rest place := by
  constructor
  · rintro ⟨earlier, later, gap, split, length, follows, starts⟩
    cases earlier with
    | nil => cases length
    | cons head earlier =>
      obtain ⟨rfl, tail_eq⟩ := List.cons.inj split
      obtain ⟨inner, rfl, inner_follows⟩ := follows_cons.mp follows
      have breaks : BreaksLine gap := by simpa using starts
      exact ⟨inner, rfl, earlier, later, gap, tail_eq, Nat.succ.inj length, inner_follows,
        .inr breaks⟩
  · rintro ⟨inner, rfl, earlier, later, gap, rfl, rfl, follows, starts⟩
    have breaks : BreaksLine gap := by simpa using starts
    exact ⟨entry :: earlier, later, gap, rfl, rfl, follows_cons.mpr ⟨inner, rfl, follows⟩,
      .inr breaks⟩

theorem not_leadsAt_succ_nil {startsLine : Bool} {place : Nat} :
    ¬ comment.LeadsAt startsLine [] text (place + 1) := by
  rintro ⟨earlier, later, gap, split, length, -⟩
  obtain ⟨rfl, rfl⟩ := List.append_eq_nil_iff.mp split.symm
  cases length

/-- The comments that lead up to the tokens of some entries one by one, and to what follows. -/
structure LedBy (startsLine : Bool) (entries : List Entry) (text : List Char)
    (led : List (List LineComment)) : Prop where
  ordered : led.flatten.Pairwise LineComment.InFrontOf
  leadsAt : ∀ place comment, comment ∈ led.getD place [] ↔
    comment.LeadsAt startsLine entries text place

theorem ledBy_last {startsLine : Bool} {found : List LineComment}
    (ordered : found.Pairwise LineComment.InFrontOf)
    (leads : ∀ comment : LineComment, comment.Leads startsLine text ↔ comment ∈ found) :
    LedBy startsLine [] text [found] where
  ordered := by simpa using ordered
  leadsAt place comment := by
    cases place with
    | zero =>
      rw [leadsAt_zero, leads]
      rfl
    | succ place => exact iff_of_false List.not_mem_nil not_leadsAt_succ_nil

theorem LedBy.behindEntry {startsLine next : Bool} {found : List LineComment}
    {led : List (List LineComment)} (collects : Collects startsLine entry.gap next found)
    (begins : beginsToken (entry.lexeme ++ rest) = true) (further : LedBy false entries rest led) :
    LedBy startsLine (entry :: entries) (entry.text ++ rest)
      (found :: led.map (·.map (.behind entry.text))) where
  ordered := by
    have inside : ∀ comment ∈ found, comment.before.length < entry.text.length := by
      intro comment listed
      have := collects.inside comment listed
      rw [Entry.text, List.length_append]
      omega
    rw [List.flatten_cons, ← List.map_flatten]
    exact ordered_append collects.ordered inside further.ordered
  leadsAt place comment := by
    cases place with
    | zero =>
      have none : ¬ ∃ inner : LineComment, comment = inner.behind entry.gap ∧
          inner.Leads next (entry.lexeme ++ rest) := by
        rintro ⟨inner, -, leads⟩
        exact standsIn_token begins leads.1
      rw [leadsAt_zero, Entry.text, List.append_assoc, collects.leads, or_iff_left none]
      rfl
    | succ place =>
      have shifted : (led.map (·.map (LineComment.behind entry.text))).getD place [] =
          (led.getD place []).map (LineComment.behind entry.text) :=
        List.getD_map led [] (List.map (LineComment.behind entry.text))
      rw [leadsAt_succ, List.getD_cons_succ, shifted, List.mem_map]
      constructor
      · rintro ⟨inner, listed, rfl⟩
        exact ⟨inner, rfl, (further.leadsAt place inner).mp listed⟩
      · rintro ⟨inner, rfl, leads⟩
        exact ⟨inner, (further.leadsAt place inner).mpr leads, rfl⟩

/-- A token keeps the comments that are found in the gap in front of it. -/
theorem Collects.token_comments {line : Nat} {startsLine next : Bool} {found : List LineComment}
    {stream : TokenStream} (collects : Collects startsLine entry.gap next found)
    (begins : beginsToken (entry.lexeme ++ rest) = true)
    (success : Source.scan line startsLine [] (entry.text ++ rest) = .ok stream)
    (first : stream.tokens.head? = some entry.token) :
    entry.token.comments = found.map LineComment.text := by
  rw [Entry.text, List.append_assoc, collects.scan, List.nil_append] at success
  obtain ⟨word, -, -, -, -, others, -, -, -, -, rfl⟩ := scan_at_token success begins
  have token_eq : word.token _ next (found.map LineComment.text) = entry.token :=
    Option.some.inj first
  rw [← token_eq]
  rfl

/-- The comments of a layout, token by token. -/
theorem Layout.comments {line : Nat} {startsLine : Bool} {stream : TokenStream}
    (layout : Layout entries text) (success : scan line startsLine [] text = .ok stream)
    (tokens : entries.map Entry.token = stream.tokens) :
    ∃ led, LedBy startsLine entries text led ∧
      led.map (·.map LineComment.text) =
        stream.tokens.map Token.comments ++ [stream.endComments] := by
  induction layout generalizing line startsLine stream with
  | last last =>
    obtain ⟨found, scanned, leads, ordered⟩ := last.collects startsLine
    obtain ⟨endLine, whole⟩ := scanned line []
    cases success.symm.trans whole
    exact ⟨[found], ledBy_last ordered leads, rfl⟩
  | @entry first entries rest passed written begins _ ih =>
    have at_head : stream.tokens.head? = some first.token := by
      rw [← tokens]
      rfl
    obtain ⟨next, found, collects⟩ := passed.collects startsLine
    have comments_eq := collects.token_comments begins success at_head
    obtain ⟨counted, others, onward, rfl, -⟩ := scan_entry passed written begins success at_head
    obtain ⟨led, further, texts⟩ := ih onward (List.cons.inj tokens).2
    refine ⟨_, further.behindEntry collects begins, ?_⟩
    have shifted : (led.map (·.map (LineComment.behind first.text))).map
        (·.map LineComment.text) = led.map (·.map LineComment.text) := by
      simp [Function.comp_def]
    rw [List.map_cons, ← comments_eq, shifted, texts]
    rfl

end

/-! ## Comments on their own lines and behind tokens -/

theorem not_isBlank_of_mem {chars : List Char} (solid : chars.all (!isBlank ·) = true) :
    ∀ c ∈ chars, isBlank c = false := by
  simpa using solid

theorem not_isBlank_of_isHexOrUnderscore {c : Char} (inside : isHexOrUnderscore c = true) :
    isBlank c = false := by
  have codes : 33 ≤ c.toNat ∧ c.toNat < 133 := by
    simp only [isHexOrUnderscore, Char.isDigit, Char.le_def, UInt32.le_iff_toNat_le,
      Bool.or_eq_true, Bool.and_eq_true, decide_eq_true_eq] at inside
    rcases inside with ((digit | lower) | upper) | rfl
    · exact ⟨Nat.le_trans (by decide) digit.1, Nat.lt_of_le_of_lt digit.2 (by decide)⟩
    · exact ⟨Nat.le_trans (by decide) lower.1, Nat.lt_of_le_of_lt lower.2 (by decide)⟩
    · exact ⟨Nat.le_trans (by decide) upper.1, Nat.lt_of_le_of_lt upper.2 (by decide)⟩
    · decide
  rw [isBlank, CharSet.contains, blanks]
  generalize c.toNat = code at codes ⊢
  have reached : 9 ≤ code ∧ 14 ≤ code ∧ 28 ≤ code ∧ 33 ≤ code ∧ ¬ 133 ≤ code := by omega
  simp [reached]

theorem IsNumber.not_blank {text : List Char} (shape : IsNumber text) :
    ∀ c ∈ text, isBlank c = false := by
  have decimal : ∀ {c : Char}, isDecimal c = true → isBlank c = false := by
    intro c digit
    exact not_isBlank_of_isNameChar (by rw [isNameChar, digit, Bool.or_true])
  have digit_or_underscore : ∀ {c : Char}, isDecimalOrUnderscore c = true → isBlank c = false := by
    intro c inside
    simp only [isDecimalOrUnderscore, Bool.or_eq_true, decide_eq_true_eq] at inside
    rcases inside with digit | rfl
    · exact decimal digit
    · rfl
  cases shape with
  | @radix r digits letter _ hex =>
    simp only [List.forall_mem_cons]
    exact ⟨rfl, not_isBlank_of_mem rfl r letter,
      fun d member => not_isBlank_of_isHexOrUnderscore (hex d member)⟩
  | @decimal c whole fraction exponent digit further point power =>
    simp only [List.forall_mem_cons, List.forall_mem_append]
    refine ⟨decimal digit, fun d member => digit_or_underscore (further d member), ?_, ?_⟩
    · rcases point with rfl | ⟨d, more, rfl, first, behind⟩
      · simp
      · simp only [List.forall_mem_cons]
        exact ⟨rfl, decimal first, fun d member => digit_or_underscore (behind d member)⟩
    · rcases power with rfl | ⟨letter, sign, digits, rfl, shape, listed, -, behind⟩
      · simp
      · have signs : ∀ c ∈ sign, isBlank c = false := fun c member =>
          not_isBlank_of_mem rfl c (List.mem_flatten_of_mem listed member)
        simp only [List.forall_mem_cons, List.forall_mem_append]
        exact ⟨by rcases shape with rfl | rfl <;> rfl, signs,
          fun d member => decimal (behind d member)⟩

/-- The last character of a lexeme is not white space. -/
theorem WrittenAs.last {word : Word} {lexeme : List Char} {escaped : Nat}
    (written : WrittenAs word lexeme escaped) :
    ∃ front last, lexeme = front ++ [last] ∧ isBlank last = false := by
  have of_all : ∀ {lexeme : List Char}, lexeme ≠ [] → (∀ c ∈ lexeme, isBlank c = false) →
      ∃ front last, lexeme = front ++ [last] ∧ isBlank last = false := by
    intro lexeme nonempty solid
    obtain ⟨front, last, rfl⟩ := (List.eq_nil_or_concat' lexeme).resolve_left nonempty
    exact ⟨front, last, rfl, solid last (by simp)⟩
  have nonempty := written.nonempty
  cases written with
  | number shape => exact of_all nonempty shape.not_blank
  | name identifier =>
    exact of_all nonempty fun c member =>
      not_isBlank_of_isNameChar (isIdentifier_isNameChar identifier c member)
  | @accented raw _ => exact ⟨'\x60' :: raw, '\x60', rfl, rfl⟩
  | mark listed =>
    exact of_all nonempty fun c member =>
      not_isBlank_of_mem rfl c (List.mem_flatten_of_mem listed member)
  | @literal fence _ _ inner _ =>
    cases fence with
    | single => exact ⟨'"' :: inner, '"', rfl, rfl⟩
    | triple => exact ⟨'"' :: '"' :: '"' :: inner ++ ['"', '"'], '"', by simp [Fence.quotes], rfl⟩

/-- A line break with only white space behind it is not inside a block comment. -/
theorem breaksLine_of_white {gap above white : List Char} (passed : Gap gap)
    (split : gap = above ++ '\n' :: white) (blank : ∀ c ∈ white, isBlank c = true) :
    BreaksLine gap := by
  induction passed generalizing above with
  | nil => simp at split
  | @space c rest shown further ih =>
    cases above with
    | nil =>
      obtain ⟨rfl, -⟩ := List.cons.inj split
      exact ⟨[], rest, .inl .nil, further, rfl⟩
    | cons d above =>
      obtain ⟨rfl, tail_eq⟩ := List.cons.inj split
      exact (ih tail_eq).behind (.space c shown .nil)
  | @lineComment body rest one_line further _ =>
    exact ⟨'/' :: '/' :: body, rest, .inr ⟨[], body, .nil, one_line, rfl⟩, further, rfl⟩
  | @blockComment comment rest nested further ih =>
    have alone := (GapPart.blockComment nested).gap
    rcases List.append_eq_append_iff.mp split with
      ⟨front, rfl, rest_eq⟩ | ⟨inside, inside_eq, split⟩
    · exact (ih rest_eq).behind alone
    · cases inside with
      | nil =>
        have behind := ih (show rest = [] ++ '\n' :: white from split.symm)
        exact behind.behind alone
      | cons c inside =>
        -- The break is in the comment, so the slash at its end is behind the break.
        obtain ⟨rfl, white_eq⟩ := List.cons.inj split
        obtain ⟨body, -, rfl⟩ := nested
        have last := congrArg List.getLast? inside_eq
        rw [List.append_cons, List.getLast?_concat,
          List.getLast?_append_of_ne_nil _ (List.cons_ne_nil _ _)] at last
        have slash : '/' ∈ inside := by simpa using List.mem_of_getLast? last.symm
        have none := blank '/' (white_eq ▸ List.mem_append_left _ slash)
        cases none

theorem LineComment.OnOwnLine.starts {comment : LineComment} {entries earlier later : List Entry}
    {gap text : List Char} (own : comment.OnOwnLine) (layout : Layout entries text)
    (place : entries = earlier ++ later) (follows : comment.Follows earlier gap text) :
    earlier = [] ∨ BreaksLine gap := by
  obtain ⟨above, white, before_eq, ends, blank⟩ := own
  rcases List.eq_nil_or_concat' earlier with rfl | ⟨others, entry, rfl⟩
  · exact .inl rfl
  · right
    have written : WrittenAs entry.token.word entry.lexeme entry.escaped :=
      layout.written entry (by simp [place])
    obtain ⟨front, last, lexeme_eq, solid⟩ := written.last
    have not_white : last ∉ white := by
      intro inside
      rw [(blank last inside).1] at solid
      cases solid
    have split : (others.flatMap Entry.text ++ entry.gap ++ front) ++ last :: gap =
        above ++ white := by
      rw [← before_eq, follows.1]
      simp [Entry.text, lexeme_eq]
    rcases List.append_eq_append_iff.mp split with
      ⟨behind, above_eq, tail_eq⟩ | ⟨behind, -, tail_eq⟩
    · cases behind with
      | nil =>
        rw [List.nil_append] at tail_eq
        exact absurd (tail_eq ▸ List.mem_cons_self) not_white
      | cons c behind =>
        obtain rfl := (List.cons.inj tail_eq).1
        rcases List.eq_nil_or_concat' behind with rfl | ⟨behind, c, rfl⟩
        · obtain rfl : last = '\n' := ends last (by rw [above_eq]; exact List.getLast?_concat)
          cases solid
        · obtain rfl : c = '\n' := by
            apply ends c
            rw [above_eq, ← List.cons_append, ← List.append_assoc]
            exact List.getLast?_concat
          have gap_eq : gap = behind ++ '\n' :: white := by simpa using tail_eq
          exact breaksLine_of_white follows.2.1 gap_eq fun c member => (blank c member).1
    · exact absurd (tail_eq ▸ List.mem_append_right _ List.mem_cons_self) not_white

theorem trimEnd_split (text : List Char) :
    ∃ white, text = trimEnd text ++ white ∧ (∀ c ∈ white, isBlank c = true) ∧
      ∀ c ∈ (trimEnd text).getLast?, isBlank c = false := by
  refine ⟨(text.reverse.takeWhile isBlank).reverse, ?_, ?_, ?_⟩
  · rw [trimEnd, ← List.reverse_append, List.takeWhile_append_dropWhile, List.reverse_reverse]
  · intro c member
    exact mem_takeWhile c (List.mem_reverse.mp member)
  · intro c last
    rw [trimEnd, List.getLast?_reverse] at last
    have stopped := List.head?_dropWhile_not isBlank text.reverse
    rw [Option.mem_def.mp last] at stopped
    exact stopped

/-- What is said in a comment: what stands behind the slashes and one space, without the white space
at the end. -/
def LineComment.Says (comment : LineComment) (said : List Char) : Prop :=
  ∃ slash space white, comment.body = slash ++ (space ++ (said ++ white)) ∧
    (slash = ['/'] ∨ slash = [] ∧ (space ++ (said ++ white)).head? ≠ some '/') ∧
    (space = [' '] ∨ space = [] ∧ (said ++ white).head? ≠ some ' ') ∧
    (∀ c ∈ white, isBlank c = true) ∧ ∀ c ∈ said.getLast?, isBlank c = false

/-- A text without one mark in front. -/
def withoutMark (mark : Char) (text : List Char) : List Char :=
  if text.head? = some mark then text.tail else text

theorem withoutMark_split (mark : Char) (text : List Char) :
    ∃ front, text = front ++ withoutMark mark text ∧
      (front = [mark] ∨ front = [] ∧ (withoutMark mark text).head? ≠ some mark) := by
  by_cases first : text.head? = some mark
  · obtain ⟨rest, rfl⟩ := List.head?_eq_some_iff.mp first
    exact ⟨[mark], by simp [withoutMark], .inl rfl⟩
  · rw [withoutMark, if_neg first]
    exact ⟨[], rfl, .inr ⟨rfl, first⟩⟩

theorem LineComment.says_text (comment : LineComment) : comment.Says comment.text.toList := by
  have text_eq :
      comment.text.toList = trimEnd (withoutMark ' ' (withoutMark '/' comment.body)) := by
    rw [text, commentText, String.toList_ofList]
    rfl
  obtain ⟨slash, slash_eq, slashes⟩ := withoutMark_split '/' comment.body
  obtain ⟨space, space_eq, spaces⟩ := withoutMark_split ' ' (withoutMark '/' comment.body)
  obtain ⟨white, white_eq, blank, last⟩ :=
    trimEnd_split (withoutMark ' ' (withoutMark '/' comment.body))
  rw [← text_eq] at white_eq last
  rw [white_eq] at space_eq spaces
  rw [space_eq] at slash_eq slashes
  exact ⟨slash, space, white, slash_eq, slashes, spaces, blank, last⟩

/-- No line comment is lost or kept twice. One that is alone on its line is kept, as what it says,
with the next token or with the end of the text, and nowhere else; one that stands behind a token
with only blanks between them is not kept at all. Comments that are kept are in the order in which
they stand in the text. -/
theorem tokenize_comments {text : List Char} {stream : TokenStream}
    (success : tokenize text = .ok stream) :
    (∃ entries, Layout entries text ∧ entries.map Entry.token = stream.tokens) ∧
    ∀ entries, Layout entries text → entries.map Entry.token = stream.tokens →
      ∃ led : List (List LineComment),
        led.map (·.map LineComment.text) =
          stream.tokens.map Token.comments ++ [stream.endComments] ∧
        led.flatten.Pairwise LineComment.InFrontOf ∧
        (∀ comment : LineComment, comment.Says comment.text.toList) ∧
        (∀ comment ∈ led.flatten, ∃ earlier later gap, entries = earlier ++ later ∧
          comment.Follows earlier gap text) ∧
        ∀ earlier later, entries = earlier ++ later →
          ∀ (comment : LineComment) gap, comment.Follows earlier gap text →
            (comment.OnOwnLine → ∀ place, comment ∈ led.getD place [] ↔ place = earlier.length) ∧
            (earlier ≠ [] → (∀ c ∈ gap, isInlineBlank c = true) →
              ∀ place, comment ∉ led.getD place []) := by
  rw [tokenize_eq_scan] at success
  refine ⟨exists_layout success, fun entries layout tokens => ?_⟩
  obtain ⟨led, ⟨ordered, leadsAt⟩, texts⟩ := layout.comments success tokens
  refine ⟨led, texts, ordered, LineComment.says_text, ?_, ?_⟩
  · intro comment listed
    obtain ⟨list, member, inside⟩ := List.mem_flatten.mp listed
    obtain ⟨place, bound, rfl⟩ := List.getElem_of_mem member
    rw [← List.getD_eq_getElem led [] bound, leadsAt] at inside
    obtain ⟨earlier, later, gap, split, -, follows, -⟩ := inside
    exact ⟨earlier, later, gap, split, follows⟩
  · intro earlier later split comment gap follows
    have placed : ∀ place, comment ∈ led.getD place [] ↔
        place = earlier.length ∧ (earlier = [] ∨ BreaksLine gap) := by
      intro place
      rw [leadsAt]
      constructor
      · rintro ⟨others, further, other_gap, other_split, rfl, other_follows, starts⟩
        obtain ⟨rfl, rfl⟩ := layout.follows_unique split other_split follows other_follows
        exact ⟨rfl, starts.imp And.left id⟩
      · rintro ⟨rfl, starts⟩
        exact ⟨earlier, later, gap, split, rfl, follows, starts.imp (⟨·, rfl⟩) id⟩
    constructor
    · intro own place
      rw [placed, and_iff_left (own.starts layout split follows)]
    · intro others blank place listed
      obtain ⟨-, first | breaks⟩ := (placed place).mp listed
      · exact others first
      · cases blank '\n' breaks.mem

/-- A comment alone on its line and one behind a token. -/
theorem comment_above_and_behind_name :
    let text := ['/', '/', ' ', 'a', '\n', 'x', ' ', '/', '/', 'b']
    let above : LineComment := ⟨[], [' ', 'a']⟩
    let beside : LineComment := ⟨['/', '/', ' ', 'a', '\n', 'x', ' '], ['b']⟩
    ∃ stream, ∃ led : List (List LineComment), tokenize text = .ok stream ∧
      stream.tokens.map Token.comments = [["a"]] ∧ stream.endComments = [] ∧
      led.map (·.map LineComment.text) =
        stream.tokens.map Token.comments ++ [stream.endComments] ∧
      (∀ place, above ∈ led.getD place [] ↔ place = 0) ∧
      ∀ place, beside ∉ led.getD place [] := by
  intro text above beside
  have success : tokenize text = .ok ⟨[⟨.name, "x", 2, true, ["a"], []⟩], 2, []⟩ := by
    decide +kernel
  have comment : Gap ['/', '/', ' ', 'a', '\n'] := .lineComment [' ', 'a'] (by decide) .nil
  have last : LastGap [' ', '/', '/', 'b'] :=
    .inr ⟨[' '], ['b'], .space ' ' (.inl rfl) .nil, by decide, rfl⟩
  have layout : Layout [⟨['/', '/', ' ', 'a', '\n'], ['x'], ⟨.name, "x", 2, true, ["a"], []⟩, 0⟩]
      text := .entry comment (.name rfl) rfl (.last last)
  obtain ⟨led, texts, -, -, -, told⟩ := (tokenize_comments success).2 _ layout rfl
  have above_told := told [] _ rfl above [] ⟨rfl, .nil, by decide, ['\n', 'x', ' ', '/', '/', 'b'],
    rfl, by simp⟩
  have beside_told := told _ [] (List.append_nil _).symm beside [' ']
    ⟨rfl, .space ' ' (.inl rfl) .nil, by decide, [], rfl, by simp⟩
  refine ⟨_, led, success, rfl, rfl, texts, above_told.1 ⟨[], [], rfl, by simp, by simp⟩, ?_⟩
  exact beside_told.2 (by simp) (by simp [isInlineBlank])

end ApiHandbook.Source
