import Mathlib.Data.List.TakeWhile
import ApiHandbook.Text.Blank
import ApiHandbook.Text.NameChar

/-!
# Characters that begin names and numbers

No character begins both a name and a number, and none that can stand in them is white space. The
tables are long, so this is read off their edges: no edge of the one lies inside a stretch of the
other.
-/
namespace ApiHandbook.Text

/-- The stretches of a set, each from its first code point to the one behind its last. -/
def stretches : List Nat → List (Nat × Nat)
  | first :: behind :: rest => (first, behind) :: stretches rest
  | _ => []

theorem stretch_of_odd {code : Nat} (edges : List Nat) (even : edges.length % 2 = 0)
    (odd : (edges.takeWhile (· ≤ code)).length % 2 = 1) :
    ∃ stretch ∈ stretches edges, stretch.1 ≤ code ∧ code < stretch.2 := by
  fun_induction stretches edges with
  | case1 first behind rest ih =>
    by_cases reached : first ≤ code
    · by_cases passed : behind ≤ code
      · have kept : (rest.takeWhile (· ≤ code)).length % 2 = 1 := by
          rw [List.takeWhile_cons_of_pos (by simpa using reached),
            List.takeWhile_cons_of_pos (by simpa using passed)] at odd
          simp only [List.length_cons] at odd
          omega
        have shorter : rest.length % 2 = 0 := by
          simp only [List.length_cons] at even
          omega
        obtain ⟨stretch, listed, inside⟩ := ih shorter kept
        exact ⟨stretch, List.mem_cons_of_mem _ listed, inside⟩
      · exact ⟨(first, behind), List.mem_cons_self, reached, by omega⟩
    · rw [List.takeWhile_cons_of_neg (by simpa using reached)] at odd
      cases odd
  | case2 edges short =>
    match edges, short with
    | [], _ => cases odd
    | [_], _ => cases even
    | _ :: _ :: _, short => exact absurd rfl (short _ _ _)

/-- Whether the set with these edges has no code point in any of some increasing stretches: behind
an even number of edges comes the start of the stretch, and its end before the next edge. The walk
drops the edges it has passed. -/
def missesAll (start : Nat) : List (Nat × Nat) → List Nat → Bool
  | [], _ => true
  | (first, behind) :: more, edges =>
    let further := edges.dropWhile (Nat.ble · first)
    Nat.ble start first && (edges.takeWhile (Nat.ble · first)).length % 2 == 0 &&
      further.head?.all (Nat.ble behind ·) && missesAll first more further

theorem even_of_missesAll {start : Nat} {found : List (Nat × Nat)} {edges : List Nat}
    (misses : missesAll start found edges = true) :
    ∀ stretch ∈ found, start ≤ stretch.1 ∧ ∀ code, stretch.1 ≤ code → code < stretch.2 →
      (edges.takeWhile (· ≤ code)).length % 2 = 0 := by
  fun_induction missesAll start found edges with
  | case1 start edges => simp
  | case2 start first behind more edges further ih =>
    simp only [Bool.and_eq_true, beq_iff_eq, Nat.ble_eq] at misses
    obtain ⟨⟨⟨ordered, even⟩, next⟩, later⟩ := misses
    have walked : ∀ code, first ≤ code → (edges.takeWhile (· ≤ code)).length % 2 =
        (further.takeWhile (· ≤ code)).length % 2 := by
      intro code reached
      have passed : ∀ edge ∈ edges.takeWhile (Nat.ble · first), decide (edge ≤ code) = true := by
        intro edge listed
        have below := List.all_eq_true.mp List.all_takeWhile edge listed
        rw [Nat.ble_eq] at below
        simpa using Nat.le_trans below reached
      have split : (edges.takeWhile (Nat.ble · first) ++ further).takeWhile (· ≤ code) =
          edges.takeWhile (Nat.ble · first) ++ further.takeWhile (· ≤ code) :=
        List.takeWhile_append_of_pos passed
      rw [List.takeWhile_append_dropWhile] at split
      rw [split, List.length_append]
      omega
    intro stretch listed
    rcases List.mem_cons.mp listed with rfl | tail
    · refine ⟨ordered, fun code reached before => ?_⟩
      rw [walked code reached]
      cases ahead : further with
      | nil => rfl
      | cons edge rest =>
        rw [ahead, List.head?_cons, Option.all_some, Nat.ble_eq] at next
        have beyond : ¬ edge ≤ code := by omega
        rw [List.takeWhile_cons_of_neg (by simpa using beyond)]
        rfl
    · obtain ⟨behind_first, outside⟩ := ih later stretch tail
      refine ⟨Nat.le_trans ordered behind_first, fun code reached before => ?_⟩
      rw [walked code (Nat.le_trans behind_first reached)]
      exact outside code reached before

/-- No character is in both of two sets if none of the one is in a stretch of the other. -/
theorem CharSet.not_contains_of_missesAll {set other : CharSet} (even : other.edges.length % 2 = 0)
    (apart : missesAll 0 (stretches other.edges) set.edges = true) {c : Char}
    (inside : set.contains c = true) : other.contains c = false := by
  cases both : other.contains c with
  | false => rfl
  | true =>
    have odd : (other.edges.takeWhile (· ≤ c.toNat)).length % 2 = 1 := by
      simpa [CharSet.contains] using both
    obtain ⟨stretch, listed, reached, before⟩ := stretch_of_odd _ even odd
    have outside := (even_of_missesAll apart stretch listed).2 c.toNat reached before
    rw [CharSet.contains, outside] at inside
    cases inside

theorem not_isDecimal_of_isNameStart {c : Char} (start : isNameStart c = true) :
    isDecimal c = false :=
  CharSet.not_contains_of_missesAll (by decide +kernel) (by decide +kernel) start

theorem not_isBlank_of_isNameChar {c : Char} (inside : isNameChar c = true) :
    isBlank c = false := by
  rcases Bool.or_eq_true_iff.mp inside with start | decimal
  · exact CharSet.not_contains_of_missesAll (by decide +kernel) (by decide +kernel) start
  · exact CharSet.not_contains_of_missesAll (by decide +kernel) (by decide +kernel) decimal

end ApiHandbook.Text
