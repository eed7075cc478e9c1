/-! # Splitting text at marks -/
namespace ApiHandbook.Text

/-- The parts between the marks; there is always at least one. -/
def splitOn (mark : Char) : List Char → List (List Char)
  | [] => [[]]
  | c :: rest =>
    if c = mark then [] :: splitOn mark rest
    else
      match splitOn mark rest with
      | [] => [[c]]
      | part :: parts => (c :: part) :: parts

/-- The text before and after the last `mark`, if there is one. -/
def splitLast? (mark : Char) (text : List Char) : Option (List Char × List Char) :=
  match text.reverse.dropWhile (· ≠ mark) with
  | [] => none
  | _ :: before => some (before.reverse, (text.reverse.takeWhile (· ≠ mark)).reverse)

theorem length_lt_of_splitLast? {mark : Char} {text before after : List Char}
    (h : splitLast? mark text = some (before, after)) : before.length < text.length := by
  unfold splitLast? at h
  split at h
  · cases h
  · rename_i found
    have := (List.dropWhile_suffix (l := text.reverse) (p := (· ≠ mark))).length_le
    simp only [Option.some.injEq, Prod.mk.injEq] at h
    rw [← h.1]
    rw [found] at this
    simp at this ⊢
    omega

end ApiHandbook.Text
