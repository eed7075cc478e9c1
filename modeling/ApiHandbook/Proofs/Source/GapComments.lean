import ApiHandbook.Proofs.Source.Layout

/-!
# Comments of gaps

A gap is cut into white space and comments in one way only, so it is settled what the line comments
of a gap are. Scanning a gap takes those that come behind a line break, or behind nothing if a line
has been started in front of the gap, and drops the others.
-/
namespace ApiHandbook.Source
open Text

/-! ## Gaps are cut in one way only -/

/-- A gap that is not put together from others. -/
inductive GapPart : List Char → Prop
  | space (c : Char) (white : isInlineBlank c = true ∨ c = '\n') : GapPart [c]
  | lineComment (body : List Char) (one_line : '\n' ∉ body) :
      GapPart ('/' :: '/' :: body ++ ['\n'])
  | blockComment {comment : List Char} (nested : IsBlockComment comment) : GapPart comment

section
variable {part rest : List Char}

theorem GapPart.gap (one : GapPart part) : Gap part := by
  cases one with
  | space c white => exact .space c white .nil
  | lineComment body one_line => exact .lineComment body one_line .nil
  | blockComment nested =>
    have alone := Gap.blockComment nested .nil
    rwa [List.append_nil] at alone

theorem GapPart.nonempty (one : GapPart part) : part ≠ [] := by
  cases one with
  | space | lineComment => exact List.cons_ne_nil _ _
  | blockComment nested =>
    obtain ⟨body, -, rfl⟩ := nested
    exact List.cons_ne_nil _ _

theorem Gap.exists_part {gap : List Char} (passed : Gap gap) (nonempty : gap ≠ []) :
    ∃ part rest, GapPart part ∧ Gap rest ∧ gap = part ++ rest := by
  cases passed with
  | nil => exact absurd rfl nonempty
  | space c white further => exact ⟨[c], _, .space c white, further, rfl⟩
  | lineComment body one_line further =>
    exact ⟨_, _, .lineComment body one_line, further, by simp⟩
  | blockComment nested further => exact ⟨_, _, .blockComment nested, further, rfl⟩

/-- The body of a line comment is what stands in front of the end of the line. -/
theorem body_unique {body other after further : List Char} (one_line : '\n' ∉ body)
    (other_line : '\n' ∉ other) (ends : ∀ c ∈ after.head?, c = '\n')
    (other_ends : ∀ c ∈ further.head?, c = '\n') (same : body ++ after = other ++ further) :
    body = other := by
  have front : ∀ {body after : List Char}, '\n' ∉ body → (∀ c ∈ after.head?, c = '\n') →
      (body ++ after).takeWhile (· ≠ '\n') = body := by
    intro body after one_line ends
    apply takeWhile_before
    · intro c member
      rw [decide_eq_true_eq]
      rintro rfl
      exact one_line member
    · intro c at_head
      simp [ends c at_head]
  rw [← front one_line ends, same, front other_line other_ends]

theorem IsBlockComment.unique {comment other after further : List Char}
    (nested : IsBlockComment comment) (other_nested : IsBlockComment other)
    (same : comment ++ after = other ++ further) : comment = other := by
  obtain ⟨body, inside, rfl⟩ := nested
  obtain ⟨other_body, other_inside, rfl⟩ := other_nested
  have closed : ∀ {body after : List Char}, CommentBody body →
      blockCommentLength 0 (body ++ '*' :: '/' :: after) = some (2 + body.length) :=
    fun inside => inside.blockCommentLength_append 0 _
  have bodies : body ++ '*' :: '/' :: after = other_body ++ '*' :: '/' :: further := by
    simpa using same
  have lengths : some (2 + body.length) = some (2 + other_body.length) := by
    rw [← closed inside, bodies, closed other_inside]
  have length_eq : body.length = other_body.length := by
    have := Option.some.inj lengths
    omega
  rw [(List.append_inj bodies length_eq).1]

/-- No part is the beginning of another one. -/
theorem GapPart.unique {other after further : List Char} (one : GapPart part)
    (two : GapPart other) (same : part ++ after = other ++ further) : part = other := by
  have solid : ∀ {c : Char}, isInlineBlank c = true ∨ c = '\n' → c ≠ '/' := by
    rintro c white rfl
    revert white
    decide
  cases one with
  | space c white =>
    cases two with
    | space d _ => rw [(List.cons.inj same).1]
    | lineComment => exact absurd (List.cons.inj same).1 (solid white)
    | blockComment nested =>
      obtain ⟨body, -, rfl⟩ := nested
      exact absurd (List.cons.inj same).1 (solid white)
  | lineComment body one_line =>
    cases two with
    | space c white => exact absurd (List.cons.inj same).1.symm (solid white)
    | lineComment other other_line =>
      have bodies : body ++ '\n' :: after = other ++ '\n' :: further := by simpa using same
      rw [body_unique one_line other_line (by simp) (by simp) bodies]
    | blockComment nested =>
      obtain ⟨inner, -, rfl⟩ := nested
      simp at same
  | blockComment nested =>
    cases two with
    | space c white =>
      obtain ⟨body, -, rfl⟩ := nested
      exact absurd (List.cons.inj same).1.symm (solid white)
    | lineComment =>
      obtain ⟨inner, -, rfl⟩ := nested
      simp at same
    | blockComment other_nested => exact nested.unique other_nested same

/-- A gap that shares its beginning with a part begins with that part. -/
theorem Gap.behindPart {gap after : List Char} (passed : Gap gap) (nonempty : gap ≠ [])
    (one : GapPart part) (same : gap ++ after = part ++ rest) :
    ∃ further, Gap further ∧ gap = part ++ further ∧ further ++ after = rest := by
  obtain ⟨first, further, two, behind, rfl⟩ := passed.exists_part nonempty
  rw [List.append_assoc] at same
  obtain rfl := two.unique one same
  exact ⟨further, behind, rfl, List.append_cancel_left same⟩

theorem Gap.behindGap {gap : List Char} (passed : Gap gap) (whole : Gap (gap ++ rest)) :
    Gap rest := by
  have step : ∀ {part further : List Char}, GapPart part → Gap (part ++ further) → Gap further := by
    intro part further one whole
    have nonempty : part ++ further ≠ [] := by simp [one.nonempty]
    obtain ⟨behind, gap, split, -⟩ := whole.behindPart nonempty one (List.append_nil _)
    rwa [List.append_cancel_left split]
  induction passed with
  | nil => exact whole
  | space c white _ ih => exact ih (step (.space c white) whole)
  | lineComment body one_line _ ih =>
    exact ih (step (.lineComment body one_line) (by simpa using whole))
  | blockComment nested _ ih =>
    rw [List.append_assoc] at whole
    exact ih (step (.blockComment nested) whole)

end

/-! ## The comments of a gap -/

/-- A line comment, with the text in front of it and what stands behind its two slashes. -/
structure LineComment where
  before : List Char
  body : List Char

namespace LineComment

/-- What is kept of a comment. -/
def text (comment : LineComment) : String := commentText ('/' :: '/' :: comment.body)

def behind (front : List Char) (comment : LineComment) : LineComment :=
  { comment with before := front ++ comment.before }

@[simp] theorem text_behind (front : List Char) (comment : LineComment) :
    (comment.behind front).text = comment.text := rfl

theorem behind_behind (first second : List Char) (comment : LineComment) :
    (comment.behind second).behind first = comment.behind (first ++ second) := by
  simp [behind]

theorem behind_injective (front : List Char) : Function.Injective (behind front) := by
  rintro ⟨before, body⟩ ⟨other, other_body⟩ same
  simpa [behind] using same

/-- Only a gap stands in front of the comment. -/
def StandsIn (text : List Char) (comment : LineComment) : Prop :=
  Gap comment.before ∧ '\n' ∉ comment.body ∧ ∃ after,
    text = comment.before ++ ('/' :: '/' :: comment.body ++ after) ∧ ∀ c ∈ after.head?, c = '\n'

/-- Moreover a line is started in front of it. -/
def Leads (startsLine : Bool) (text : List Char) (comment : LineComment) : Prop :=
  comment.StandsIn text ∧ (startsLine = true ∨ BreaksLine comment.before)

end LineComment

section
variable {part rest : List Char} {comment : LineComment}

theorem not_standsIn_nil : ¬ comment.StandsIn [] := by
  rintro ⟨-, -, after, split, -⟩
  simp at split

theorem standsIn_token (begins : beginsToken rest = true) : ¬ comment.StandsIn rest := by
  rintro ⟨passed, -, after, rfl, -⟩
  by_cases first : comment.before = []
  · rw [first] at begins
    simp [beginsToken] at begins
  · rw [passed.not_beginsToken first] at begins
    cases begins

theorem standsIn_part (one : GapPart part) :
    comment.StandsIn (part ++ rest) ↔
      (∃ body, part = '/' :: '/' :: body ++ ['\n'] ∧ '\n' ∉ body ∧ comment = ⟨[], body⟩) ∨
        ∃ inner : LineComment, comment = inner.behind part ∧ inner.StandsIn rest := by
  obtain ⟨before, body⟩ := comment
  constructor
  · rintro ⟨passed, one_line, after, split, ends⟩
    dsimp only at passed one_line split
    by_cases first : before = []
    · subst first
      cases after with
      | nil =>
        -- The part would be the whole line comment with a break behind it.
        have longer : part ++ (rest ++ ['\n']) = ('/' :: '/' :: body ++ ['\n']) ++ [] := by
          simp [← List.append_assoc, split]
        rw [one.unique (.lineComment body one_line) longer] at split
        simpa using congrArg List.length split
      | cons c after =>
        obtain rfl := ends c rfl
        have whole : part ++ rest = ('/' :: '/' :: body ++ ['\n']) ++ after := by simpa using split
        exact .inl ⟨body, one.unique (.lineComment body one_line) whole, one_line, rfl⟩
    · obtain ⟨further, behind, rfl, same⟩ := passed.behindPart first one split.symm
      exact .inr ⟨⟨further, body⟩, rfl, behind, one_line, after, same.symm, ends⟩
  · rintro (⟨body, rfl, one_line, ⟨⟩⟩ | ⟨inner, ⟨⟩, passed, one_line, after, rfl, ends⟩)
    · exact ⟨.nil, one_line, '\n' :: rest, by simp, by simp⟩
    · exact ⟨one.gap.append passed, one_line, after, by simp, ends⟩

theorem breaksLine_part {gap : List Char} (one : GapPart part) (passed : Gap gap) :
    BreaksLine (part ++ gap) ↔ part.getLast? = some '\n' ∨ BreaksLine gap := by
  constructor
  · rintro ⟨front, back, further | ⟨further, body, passed_further, one_line, rfl⟩, ends, split⟩
    · by_cases first : front = []
      · subst first
        rw [one.unique (.space '\n' (.inr rfl)) split]
        exact .inl rfl
      · obtain ⟨behind, behind_gap, rfl, same⟩ := further.behindPart first one split.symm
        exact .inr ⟨behind, back, .inl behind_gap, ends, same.symm⟩
    · by_cases first : further = []
      · subst first
        have split : part ++ gap = ('/' :: '/' :: body ++ ['\n']) ++ back := by simpa using split
        rw [one.unique (.lineComment body one_line) split]
        exact .inl List.getLast?_concat
      · rw [List.append_assoc] at split
        obtain ⟨behind, behind_gap, rfl, same⟩ := passed_further.behindPart first one split.symm
        exact .inr ⟨behind ++ '/' :: '/' :: body, back,
          .inr ⟨behind, body, behind_gap, one_line, rfl⟩, ends, by simp [← same]⟩
  · rintro (last | breaks)
    · cases one with
      | space c white =>
        cases last
        exact ⟨[], gap, .inl .nil, passed, rfl⟩
      | lineComment body one_line =>
        exact ⟨'/' :: '/' :: body, gap, .inr ⟨[], body, .nil, one_line, rfl⟩, passed, by simp⟩
      | blockComment nested =>
        obtain ⟨body, -, rfl⟩ := nested
        rw [List.append_cons, List.getLast?_concat] at last
        cases last
    · exact breaks.behind one.gap

/-- Leading goes on behind a part, which may start a line and may be a leading comment itself. -/
theorem leads_part (one : GapPart part) (startsLine : Bool) :
    comment.Leads startsLine (part ++ rest) ↔
      (∃ body, part = '/' :: '/' :: body ++ ['\n'] ∧ '\n' ∉ body ∧ startsLine = true ∧
        comment = ⟨[], body⟩) ∨
      ∃ inner : LineComment, comment = inner.behind part ∧
        inner.Leads (startsLine || part.getLast? = some '\n') rest := by
  have inline : ¬ BreaksLine [] := by
    rintro ⟨front, back, -, -, split⟩
    simp at split
  rw [LineComment.Leads, standsIn_part one]
  constructor
  · rintro ⟨⟨body, rfl, one_line, rfl⟩ | ⟨inner, rfl, stands⟩, starts⟩
    · exact .inl ⟨body, rfl, one_line, starts.resolve_right inline, rfl⟩
    · refine .inr ⟨inner, rfl, stands, ?_⟩
      have split := breaksLine_part one stands.1
      rw [LineComment.behind, split] at starts
      simpa [or_assoc] using starts
  · rintro (⟨body, rfl, one_line, starts, rfl⟩ | ⟨inner, rfl, stands, starts⟩)
    · exact ⟨.inl ⟨body, rfl, one_line, rfl⟩, .inl starts⟩
    · refine ⟨.inr ⟨inner, rfl, stands⟩, ?_⟩
      rw [LineComment.behind, breaksLine_part one stands.1]
      simpa [or_assoc] using starts

end

/-- The first comment comes before the second. -/
def LineComment.InFrontOf (first second : LineComment) : Prop :=
  first.before.length < second.before.length

theorem ordered_append {front : List Char} {found others : List LineComment}
    (first : found.Pairwise LineComment.InFrontOf)
    (inside : ∀ comment ∈ found, comment.before.length < front.length)
    (second : others.Pairwise LineComment.InFrontOf) :
    (found ++ others.map (LineComment.behind front)).Pairwise LineComment.InFrontOf := by
  rw [List.pairwise_append, List.pairwise_map]
  refine ⟨first, second.imp fun before => ?_, ?_⟩
  · simpa [LineComment.InFrontOf, LineComment.behind] using before
  · intro comment listed other behind
    obtain ⟨inner, -, rfl⟩ := List.mem_map.mp behind
    have := inside comment listed
    simp only [LineComment.InFrontOf, LineComment.behind, List.length_append]
    omega

/-- Scanning takes the comments that are found in a gap, and no others, and goes on behind it. -/
structure Collects (startsLine : Bool) (gap : List Char) (next : Bool) (found : List LineComment) :
    Prop where
  scan : ∀ line comments rest, Source.scan line startsLine comments (gap ++ rest) =
    Source.scan (line + gap.count '\n') next (comments ++ found.map LineComment.text) rest
  leads : ∀ rest comment, comment.Leads startsLine (gap ++ rest) ↔
    comment ∈ found ∨ ∃ inner : LineComment, comment = inner.behind gap ∧ inner.Leads next rest
  ordered : found.Pairwise LineComment.InFrontOf
  inside : ∀ comment ∈ found, comment.before.length < gap.length

section
variable {startsLine next : Bool} {gap : List Char} {found : List LineComment}

theorem Collects.append {last : Bool} {further : List Char} {others : List LineComment}
    (first : Collects startsLine gap next found) (second : Collects next further last others) :
    Collects startsLine (gap ++ further) last (found ++ others.map (.behind gap)) where
  scan line comments rest := by
    rw [List.append_assoc, first.scan, second.scan, List.count_append, List.map_append,
      List.map_map, Nat.add_assoc, List.append_assoc]
    rfl
  leads rest comment := by
    rw [List.append_assoc, first.leads, List.mem_append, or_assoc]
    apply or_congr_right
    simp only [second.leads, List.mem_map]
    constructor
    · rintro ⟨inner, rfl, listed | ⟨deeper, rfl, leads⟩⟩
      · exact .inl ⟨inner, listed, rfl⟩
      · exact .inr ⟨deeper, LineComment.behind_behind _ _ _, leads⟩
    · rintro (⟨inner, listed, rfl⟩ | ⟨deeper, rfl, leads⟩)
      · exact ⟨inner, rfl, .inl listed⟩
      · exact ⟨deeper.behind further, (LineComment.behind_behind _ _ _).symm,
          .inr ⟨deeper, rfl, leads⟩⟩
  ordered := ordered_append first.ordered first.inside second.ordered
  inside comment listed := by
    rw [List.length_append]
    rcases List.mem_append.mp listed with front | behind
    · have := first.inside comment front
      omega
    · obtain ⟨inner, later, rfl⟩ := List.mem_map.mp behind
      have := second.inside inner later
      simp only [LineComment.behind, List.length_append]
      omega

theorem collects_nil (startsLine : Bool) : Collects startsLine [] startsLine [] where
  scan line comments rest := by simp
  leads rest comment := by simp [LineComment.behind]
  ordered := .nil
  inside := by simp

/-- White space and block comments hold no line comments. -/
theorem GapPart.collects_without {part : List Char} (one : GapPart part)
    (other : ∀ body, part ≠ '/' :: '/' :: body ++ ['\n'])
    (scan : ∀ line comments rest, Source.scan line startsLine comments (part ++ rest) =
      Source.scan (line + part.count '\n') (startsLine || part.getLast? = some '\n') comments
        rest) :
    Collects startsLine part (startsLine || part.getLast? = some '\n') [] where
  scan line comments rest := by rw [scan, List.map_nil, List.append_nil]
  leads rest comment := by
    rw [leads_part one, or_iff_right fun ⟨body, same, _⟩ => other body same,
      or_iff_right List.not_mem_nil]
  ordered := .nil
  inside := by simp

theorem collects_commentLine (startsLine : Bool) {body : List Char} (one_line : '\n' ∉ body) :
    Collects startsLine ('/' :: '/' :: body ++ ['\n']) true
      (if startsLine then [⟨[], body⟩] else []) where
  scan line comments rest := by
    have none : body.count '\n' = 0 := List.count_eq_zero.mpr one_line
    have count : ('/' :: '/' :: body ++ ['\n']).count '\n' = 1 := by simp [none]
    rw [List.append_assoc, List.singleton_append, scan_commentLine _ _ _ _ one_line, count]
    cases startsLine with
    | true => rfl
    | false => simp
  leads rest comment := by
    rw [leads_part (.lineComment body one_line), List.getLast?_concat]
    apply or_congr
    · constructor
      · rintro ⟨other, same, -, rfl, rfl⟩
        obtain rfl : body = other := by simpa using same
        exact List.mem_singleton_self _
      · intro listed
        cases startsLine with
        | true => exact ⟨body, rfl, one_line, rfl, List.mem_singleton.mp listed⟩
        | false => cases listed
    · simp
  ordered := by cases startsLine <;> simp
  inside := by cases startsLine <;> simp

theorem GapPart.collects {part : List Char} (one : GapPart part) (startsLine : Bool) :
    ∃ next found, Collects startsLine part next found := by
  have whole := one
  cases one with
  | space c white =>
    refine ⟨_, _, whole.collects_without (by simp) fun line comments rest => ?_⟩
    rcases white with blank | rfl
    · have other := ne_of_test blank '\n' rfl
      simp [scan_blank _ _ _ _ blank, other]
    · simp [scan_lineBreak]
  | lineComment body one_line => exact ⟨_, _, collects_commentLine startsLine one_line⟩
  | blockComment nested =>
    refine ⟨_, _, whole.collects_without ?_ fun line comments rest => ?_⟩
    · obtain ⟨body, -, rfl⟩ := nested
      simp
    · rw [scan_blockComment _ _ _ _ nested]
      obtain ⟨body, -, rfl⟩ := nested
      rw [List.append_cons, List.getLast?_concat]
      simp

theorem Gap.collects (passed : Gap gap) (startsLine : Bool) :
    ∃ next found, Collects startsLine gap next found := by
  have step : ∀ {part rest : List Char}, GapPart part →
      (∀ startsLine, ∃ next found, Collects startsLine rest next found) →
        ∀ startsLine, ∃ next found, Collects startsLine (part ++ rest) next found := by
    intro part rest one behind startsLine
    obtain ⟨next, found, first⟩ := one.collects startsLine
    obtain ⟨last, others, second⟩ := behind next
    exact ⟨last, _, first.append second⟩
  induction passed generalizing startsLine with
  | nil => exact ⟨_, _, collects_nil startsLine⟩
  | space c white _ ih => exact step (.space c white) ih startsLine
  | lineComment body one_line _ ih =>
    rw [List.append_cons]
    exact step (.lineComment body one_line) ih startsLine
  | blockComment nested _ ih => exact step (.blockComment nested) ih startsLine

/-- A line break at the end of a text makes no difference to its comments. -/
theorem standsIn_lineBreak {text : List Char} {comment : LineComment} :
    comment.StandsIn (text ++ ['\n']) ↔ comment.StandsIn text := by
  apply and_congr_right
  intro passed
  apply and_congr_right
  intro one_line
  constructor
  · rintro ⟨after, split, ends⟩
    rcases List.eq_nil_or_concat after with rfl | ⟨after, c, rfl⟩
    · have last := congrArg List.getLast? split
      rw [List.getLast?_concat, List.append_nil,
        List.getLast?_append_of_ne_nil _ (List.cons_ne_nil _ _)] at last
      have inside := List.mem_of_getLast? last.symm
      exact absurd (by simpa using inside) one_line
    · rw [List.concat_eq_append, ← List.append_assoc, ← List.append_assoc] at split
      refine ⟨after, ?_, fun d at_head => ends d ?_⟩
      · rw [(List.append_inj' split rfl).1, List.append_assoc]
      · rw [List.concat_eq_append, List.head?_append, Option.mem_def.mp at_head]
        rfl
  · rintro ⟨after, rfl, ends⟩
    refine ⟨after ++ ['\n'], by simp, ?_⟩
    cases after with
    | nil => simp
    | cons => exact ends

/-- The comments of the last gap, where a comment may end with the text. -/
theorem LastGap.collects (last : LastGap gap) (startsLine : Bool) :
    ∃ found : List LineComment, (∀ line comments, ∃ endLine,
        Source.scan line startsLine comments gap =
          .ok ⟨[], endLine, comments ++ found.map LineComment.text⟩) ∧
      (∀ comment, comment.Leads startsLine gap ↔ comment ∈ found) ∧
      found.Pairwise LineComment.InFrontOf := by
  rcases last with passed | ⟨front, body, passed, one_line, rfl⟩
  · obtain ⟨next, found, collects⟩ := passed.collects startsLine
    refine ⟨found, fun line comments => ?_, fun comment => ?_, collects.ordered⟩
    · have whole := collects.scan line comments []
      rw [List.append_nil, scan_nil] at whole
      exact ⟨_, whole⟩
    · have split := collects.leads [] comment
      rw [List.append_nil] at split
      rw [split, or_iff_left fun ⟨inner, _, leads⟩ => not_standsIn_nil leads.1]
  · obtain ⟨next, found, collects⟩ := passed.collects startsLine
    have whole := collects.append (collects_commentLine next one_line)
    refine ⟨_, fun line comments => ?_, fun comment => ?_, whole.ordered⟩
    · have ends : ∀ c ∈ ([] : List Char).head?, c = '\n' := by simp
      have comment := scan_lineComment (line + front.count '\n') next
        (comments ++ found.map LineComment.text) [] one_line ends
      rw [List.append_nil, scan_nil] at comment
      rw [collects.scan, comment]
      refine ⟨line + front.count '\n', ?_⟩
      cases next <;> simp [LineComment.text, LineComment.behind]
    · have split := whole.leads [] comment
      rw [List.append_nil, or_iff_left fun ⟨inner, _, leads⟩ => not_standsIn_nil leads.1,
        ← List.append_assoc, LineComment.Leads, standsIn_lineBreak] at split
      exact split

end

end ApiHandbook.Source
