import ApiHandbook.Proofs.Source.Lexemes
import ApiHandbook.Proofs.Source.Spelling

/-!
# Passing over gaps

Scanning goes on behind a gap as if the gap were not there. Every line break of a gap counts, but
only one that stands outside block comments starts a line.
-/
namespace ApiHandbook.Source
open Text

/-! ## Block comments -/

theorem blockCommentLength_char {c : Char} {text : List Char} (depth : Nat)
    (plain : beginsCommentMark c text = false) :
    blockCommentLength depth (c :: text) = (blockCommentLength depth text).map (· + 1) := by
  rw [blockCommentLength.eq_4]
  · rintro rest rfl rfl
    cases plain
  · rintro rest rfl rfl
    cases plain

theorem CommentBody.blockCommentLength_append {body : List Char} (inside : CommentBody body)
    (depth : Nat) (rest : List Char) :
    blockCommentLength depth (body ++ '*' :: '/' :: rest) =
      (blockCommentLength depth ('*' :: '/' :: rest)).map (· + body.length) := by
  induction inside generalizing depth rest with
  | nil => simp
  | @char c more plain _ ih =>
    have judged : beginsCommentMark c (more ++ '*' :: '/' :: rest) = false := by
      cases more <;> exact plain
    rw [List.cons_append, blockCommentLength_char depth judged, ih, Option.map_map]
    rfl
  | @comment inner more _ _ nested further =>
    have closed : blockCommentLength (depth + 1) ('*' :: '/' :: (more ++ '*' :: '/' :: rest)) =
        (blockCommentLength depth (more ++ '*' :: '/' :: rest)).map (· + 2) := rfl
    have opened : blockCommentLength depth
          ('/' :: '*' :: (inner ++ '*' :: '/' :: (more ++ '*' :: '/' :: rest))) =
        (blockCommentLength (depth + 1)
          (inner ++ '*' :: '/' :: (more ++ '*' :: '/' :: rest))).map (· + 2) := rfl
    rw [List.append_assoc, List.cons_append, List.cons_append, List.cons_append, List.cons_append,
      opened, nested, closed, further, Option.map_map, Option.map_map, Option.map_map]
    congr 1
    funext length
    simp only [Function.comp_apply, List.cons_append, List.length_cons, List.length_append]
    omega

/-! ## One part of a gap -/

section
variable (line : Nat) (startsLine : Bool) (comments : List String) (rest : List Char)

theorem scan_blockComment {comment : List Char} (nested : IsBlockComment comment) :
    scan line startsLine comments (comment ++ rest) =
      scan (line + comment.count '\n') startsLine comments rest := by
  obtain ⟨body, inside, rfl⟩ := nested
  have closed : blockCommentLength 0 (body ++ '*' :: '/' :: rest) = some (2 + body.length) :=
    inside.blockCommentLength_append 0 rest
  have front : frontExtent line '/' ('*' :: (body ++ ['*', '/']) ++ rest) =
      .ok ⟨.blockComment, ('*' :: (body ++ ['*', '/'])).length,
        ('*' :: (body ++ ['*', '/'])).count '\n'⟩ := by
    have size : 1 + (2 + body.length) = ('*' :: (body ++ ['*', '/'])).length := by
      simp only [List.length_cons, List.length_append, List.length_nil]
      omega
    rw [frontExtent, if_pos (by simp), List.cons_append, List.tail_cons, List.append_assoc,
      List.cons_append, List.cons_append, List.nil_append, closed]
    have taken : ('*' :: (body ++ '*' :: '/' :: rest)).take (1 + (2 + body.length)) =
        '*' :: (body ++ ['*', '/']) := by
      have split : '*' :: (body ++ '*' :: '/' :: rest) = '*' :: (body ++ ['*', '/']) ++ rest := by
        simp
      rw [size, split, List.take_left]
    dsimp only
    rw [taken, size]
  exact scan_front front

theorem scan_lineComment {body : List Char} (one_line : '\n' ∉ body)
    (ends : ∀ c ∈ rest.head?, c = '\n') :
    scan line startsLine comments ('/' :: '/' :: body ++ rest) =
      scan line startsLine
        (if startsLine then comments ++ [commentText ('/' :: '/' :: body)] else comments) rest := by
  have run : ('/' :: body ++ rest).takeWhile (· ≠ '\n') = '/' :: body := by
    apply takeWhile_before
    · intro c member
      rw [decide_eq_true_eq]
      rintro rfl
      exact one_line (by simpa using member)
    · intro c at_head
      simp [ends c at_head]
  have front : frontExtent line '/' ('/' :: body ++ rest) =
      .ok ⟨.lineComment, ('/' :: body).length, 0⟩ := by
    rw [frontExtent, if_neg (by simp), if_neg (by decide), if_neg (by decide), if_neg (by decide),
      if_pos (by simp), run]
  exact scan_front front

theorem scan_commentLine {body : List Char} (one_line : '\n' ∉ body) :
    scan line startsLine comments ('/' :: '/' :: body ++ '\n' :: rest) =
      scan (line + 1) true
        (if startsLine then comments ++ [commentText ('/' :: '/' :: body)] else comments) rest := by
  have ends : ∀ c ∈ ('\n' :: rest).head?, c = '\n' := by
    rintro c ⟨⟩
    rfl
  rw [scan_lineComment line startsLine comments _ one_line ends, scan_lineBreak]

theorem scan_blanks {c : Char} (blank : isInlineBlank c = true) :
    scan line startsLine comments (c :: rest) =
      scan line startsLine comments (rest.dropWhile isInlineBlank) := by
  have front : frontExtent line c (rest.takeWhile isInlineBlank ++ rest.dropWhile isInlineBlank) =
      .ok ⟨.blank, (rest.takeWhile isInlineBlank).length, 0⟩ := by
    rw [List.takeWhile_append_dropWhile, frontExtent, if_neg (by simp [ne_of_test blank '/' rfl]),
      if_neg (ne_of_test blank '"' rfl), if_pos blank]
  conv => lhs; rw [← List.takeWhile_append_dropWhile (p := isInlineBlank) (l := rest)]
  exact scan_front front

/-- Blanks are cut off in runs, which makes no difference. -/
theorem scan_blank {c : Char} (blank : isInlineBlank c = true) :
    scan line startsLine comments (c :: rest) = scan line startsLine comments rest := by
  rw [scan_blanks line startsLine comments rest blank]
  cases rest with
  | nil => rfl
  | cons d more =>
    by_cases further : isInlineBlank d = true
    · rw [List.dropWhile_cons_of_pos further, scan_blanks line startsLine comments more further]
    · rw [List.dropWhile_cons_of_neg further]

end

/-! ## Whole gaps -/

/-- A line break stands outside the block comments of a gap. -/
def BreaksLine (gap : List Char) : Prop :=
  ∃ front back, LastGap front ∧ Gap back ∧ gap = front ++ '\n' :: back

theorem BreaksLine.behind {gap text : List Char} (passed : Gap gap) (breaks : BreaksLine text) :
    BreaksLine (gap ++ text) := by
  obtain ⟨front, back, last, further, rfl⟩ := breaks
  exact ⟨gap ++ front, back, last.behind passed, further, (List.append_assoc _ _ _).symm⟩

theorem Gap.scan_forward {gap : List Char} (passed : Gap gap) (line : Nat) (startsLine : Bool)
    (comments : List String) :
    ∃ next further, (∀ rest, Source.scan line startsLine comments (gap ++ rest) =
        Source.scan (line + gap.count '\n') next further rest) ∧
      (startsLine = true → next = true) ∧ (¬ BreaksLine gap → next = startsLine) := by
  induction passed generalizing line startsLine comments with
  | nil => exact ⟨startsLine, comments, fun _ => rfl, id, fun _ => rfl⟩
  | @space c gap white tail ih =>
    rcases white with blank | rfl
    · obtain ⟨next, further, onward, stays, same⟩ := ih line startsLine comments
      refine ⟨next, further, ?_, stays, ?_⟩
      · intro rest
        rw [List.cons_append, scan_blank _ _ _ _ blank, onward,
          List.count_cons_of_ne (ne_of_test blank '\n' rfl)]
      · intro inline
        exact same fun breaks => inline (breaks.behind (.space c (.inl blank) .nil))
    · obtain ⟨next, further, onward, stays, -⟩ := ih (line + 1) true comments
      refine ⟨next, further, ?_, fun _ => stays rfl, ?_⟩
      · intro rest
        rw [List.cons_append, scan_lineBreak, onward, List.count_cons_self, Nat.add_assoc,
          Nat.add_comm 1]
      · intro inline
        exact absurd ⟨[], gap, .inl .nil, tail, rfl⟩ inline
  | @lineComment body gap one_line tail ih =>
    obtain ⟨next, further, onward, stays, -⟩ := ih (line + 1) true
      (if startsLine then comments ++ [commentText ('/' :: '/' :: body)] else comments)
    refine ⟨next, further, ?_, fun _ => stays rfl, ?_⟩
    · intro rest
      have none : body.count '\n' = 0 := List.count_eq_zero.mpr one_line
      have count : ('/' :: '/' :: body ++ '\n' :: gap).count '\n' = 1 + gap.count '\n' := by
        simp [none, Nat.add_comm]
      have split : '/' :: '/' :: body ++ '\n' :: gap ++ rest =
          '/' :: '/' :: body ++ '\n' :: (gap ++ rest) := by simp
      rw [split, scan_commentLine _ _ _ _ one_line, onward, count, Nat.add_assoc]
    · intro inline
      exact absurd ⟨'/' :: '/' :: body, gap, .inr ⟨[], body, .nil, one_line, rfl⟩, tail, rfl⟩ inline
  | @blockComment comment gap nested tail ih =>
    obtain ⟨next, further, onward, stays, same⟩ :=
      ih (line + comment.count '\n') startsLine comments
    refine ⟨next, further, ?_, stays, ?_⟩
    · intro rest
      rw [List.append_assoc, scan_blockComment _ _ _ _ nested, onward, List.count_append,
        Nat.add_assoc]
    · intro inline
      have alone := Gap.blockComment nested .nil
      rw [List.append_nil] at alone
      exact same fun breaks => inline (breaks.behind alone)

theorem LastGap.scan_lineBreak {front : List Char} (last : LastGap front) (line : Nat)
    (startsLine : Bool) (comments : List String) :
    ∃ further, ∀ rest, Source.scan line startsLine comments (front ++ '\n' :: rest) =
      Source.scan (line + (front.count '\n' + 1)) true further rest := by
  rcases last with gap | ⟨gap, body, passed, one_line, rfl⟩
  · obtain ⟨next, further, onward, -⟩ := gap.scan_forward line startsLine comments
    refine ⟨further, fun rest => ?_⟩
    rw [onward, Source.scan_lineBreak, Nat.add_assoc]
  · obtain ⟨next, further, onward, -⟩ := passed.scan_forward line startsLine comments
    have none : body.count '\n' = 0 := List.count_eq_zero.mpr one_line
    have count : (gap ++ '/' :: '/' :: body).count '\n' = gap.count '\n' := by simp [none]
    refine ⟨if next then further ++ [commentText ('/' :: '/' :: body)] else further,
      fun rest => ?_⟩
    rw [List.append_assoc, onward, scan_commentLine _ _ _ _ one_line, count, Nat.add_assoc]

theorem scan_nil (line : Nat) (startsLine : Bool) (comments : List String) :
    scan line startsLine comments [] = .ok ⟨[], line, comments⟩ := by
  rw [scan, piecesFrom]
  rfl

theorem LastGap.scan {gap : List Char} (last : LastGap gap) (line : Nat) (startsLine : Bool)
    (comments : List String) :
    ∃ further, Source.scan line startsLine comments gap =
      .ok ⟨[], line + gap.count '\n', further⟩ := by
  rcases last with passed | ⟨front, body, passed, one_line, rfl⟩
  · obtain ⟨next, further, onward, -⟩ := passed.scan_forward line startsLine comments
    have whole := onward []
    rw [List.append_nil, scan_nil] at whole
    exact ⟨further, whole⟩
  · obtain ⟨next, further, onward, -⟩ := passed.scan_forward line startsLine comments
    have ends : ∀ c ∈ ([] : List Char).head?, c = '\n' := by simp
    have comment := scan_lineComment (line + front.count '\n') next further [] one_line ends
    have none : body.count '\n' = 0 := List.count_eq_zero.mpr one_line
    have count : (front ++ '/' :: '/' :: body).count '\n' = front.count '\n' := by simp [none]
    rw [List.append_nil, scan_nil] at comment
    rw [onward, comment, count]
    exact ⟨_, rfl⟩

/-- What is kept of a gap: all its line breaks, whether one of them starts a line, and comments. -/
theorem Gap.scan {gap : List Char} (passed : Gap gap) (line : Nat) (startsLine : Bool)
    (comments : List String) :
    ∃ next further, (∀ rest, Source.scan line startsLine comments (gap ++ rest) =
        Source.scan (line + gap.count '\n') next further rest) ∧
      (next = true ↔ startsLine = true ∨ BreaksLine gap) := by
  by_cases breaks : BreaksLine gap
  -- Once a line has been started nothing in a gap takes that back.
  · obtain ⟨front, back, last, behind, rfl⟩ := breaks
    obtain ⟨between, reached⟩ := last.scan_lineBreak line startsLine comments
    obtain ⟨next, further, onward, stays, -⟩ :=
      behind.scan_forward (line + (front.count '\n' + 1)) true between
    refine ⟨next, further, fun rest => ?_, ?_⟩
    · rw [List.append_assoc, List.cons_append, reached, onward, List.count_append,
        List.count_cons_self]
      congr 1
      omega
    · exact iff_of_true (stays rfl) (.inr ⟨front, back, last, behind, rfl⟩)
  · obtain ⟨next, further, onward, -, same⟩ := passed.scan_forward line startsLine comments
    refine ⟨next, further, onward, ?_⟩
    rw [same breaks, or_iff_left breaks]

end ApiHandbook.Source
