import ApiHandbook.Text.ControlSequence

/-!
# Control sequences and lines

No control sequence goes over the end of a line, so a text can be printed line by line.
-/
namespace ApiHandbook.Text

theorem dropWhile_append_stop {test : Char → Bool} {stop : Char} (stops : test stop = false)
    (front back : List Char) :
    (front ++ stop :: back).dropWhile test = front.dropWhile test ++ stop :: back := by
  induction front with
  | nil => simp [stops]
  | cons c rest ih => by_cases passes : test c = true <;> simp [passes, ih]

theorem behindSequence?_append_line (front back : List Char) :
    behindSequence? (front ++ '\n' :: back) =
      (behindSequence? front).map (· ++ '\n' :: back) := by
  rw [behindSequence?, behindSequence?, dropWhile_append_stop (by decide),
    dropWhile_append_stop (by decide)]
  cases (front.dropWhile isParameter).dropWhile isIntermediate with
  | nil => simp [isFinal]
  | cons c rest => by_cases ends : isFinal c = true <;> simp [ends]

theorem withoutControls_plain {c : Char} {text : List Char}
    (other : ∀ rest, c = '\x1b' → text = '[' :: rest → False) :
    withoutControls (c :: text) = c :: withoutControls text := by
  rw [withoutControls]
  exact other

theorem withoutControls_sequence {text rest : List Char}
    (behind : behindSequence? text = some rest) :
    withoutControls ('\x1b' :: '[' :: text) = withoutControls rest := by
  rw [withoutControls]
  split
  · rename_i found same
    rw [behind] at same
    cases same
    rfl
  · rename_i none_found
    rw [behind] at none_found
    cases none_found

theorem withoutControls_broken {text : List Char} (broken : behindSequence? text = none) :
    withoutControls ('\x1b' :: '[' :: text) = '\x1b' :: withoutControls ('[' :: text) := by
  rw [withoutControls]
  split
  · rename_i found
    rw [broken] at found
    cases found
  · rfl

/-- Lines are freed from control sequences one by one. -/
theorem withoutControls_append_line (front back : List Char) :
    withoutControls (front ++ '\n' :: back) =
      withoutControls front ++ '\n' :: withoutControls back := by
  fun_induction withoutControls front with
  | case1 => exact withoutControls_plain (by simp)
  | case2 text rest behind shorter ih =>
    have longer : behindSequence? (text ++ '\n' :: back) = some (rest ++ '\n' :: back) := by
      rw [behindSequence?_append_line, behind]
      rfl
    exact (withoutControls_sequence longer).trans ih
  | case3 text broken ih =>
    have longer : behindSequence? (text ++ '\n' :: back) = none := by
      rw [behindSequence?_append_line, broken]
      rfl
    rw [List.cons_append, List.cons_append, withoutControls_broken longer]
    exact congrArg _ ih
  | case4 c text other ih =>
    rw [List.cons_append, withoutControls_plain ?_, ih]
    · rfl
    · intro rest escape bracket
      cases text with
      | nil => simp at bracket
      | cons next text =>
        cases bracket
        exact other _ escape rfl

end ApiHandbook.Text
