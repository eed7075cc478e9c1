import Mathlib.Data.List.Basic
import ApiHandbook.Proofs.Text.LowerCase
import ApiHandbook.Text.SnakeCase

/-!
# What snake case makes of a text

Snake case puts an underscore in front of each word and does nothing else but lower-case. So a mark
in a name in snake case was in the name already, and a name in snake case has no further word in
it. Where words start is said by places, without the walk that looks for them.
-/
namespace ApiHandbook.Text

/-! ## Where words start -/

/-- A word starts at the place `i`: a capital stands there, directly behind a lower-case letter or
digit, or directly behind a capital and directly in front of a lower-case letter. -/
def WordStartsAt (text : List Char) (i : Nat) : Prop :=
  0 < i ∧ text[i]?.any Char.isUpper ∧
    (text[i - 1]?.any Char.isLower ∨ text[i - 1]?.any Char.isDigit ∨
      text[i - 1]?.any Char.isUpper ∧ text[i + 1]?.any Char.isLower)

instance (text : List Char) : DecidablePred (WordStartsAt text) := fun _ =>
  inferInstanceAs (Decidable (_ ∧ _))

theorem startsWord_iff (before c : Char) (rest : List Char) :
    startsWord before c rest.head? = true ↔ WordStartsAt (before :: c :: rest) 1 := by
  simp only [startsWord, WordStartsAt, List.head?_eq_getElem?, Bool.and_eq_true, Bool.or_eq_true,
    List.getElem?_cons_zero, List.getElem?_cons_succ, Option.any_some, Nat.sub_self,
    Nat.zero_lt_one, true_and, or_assoc]

/-- Away from its front a text has the words of its tail. -/
theorem wordStartsAt_cons (c : Char) (text : List Char) (i : Nat) :
    WordStartsAt (c :: text) (i + 2) ↔ WordStartsAt text (i + 1) := by
  simp only [WordStartsAt, List.getElem?_cons_succ, Nat.add_sub_cancel, Nat.zero_lt_succ,
    show i + 2 - 1 = i + 1 from rfl]

/-- The text with one underscore in front of each of the places. -/
def underscoredAt (places : Nat → Prop) [DecidablePred places] (text : List Char) : List Char :=
  (text.mapIdx fun i c => if places i then ['_', c] else [c]).flatten

section Underscored
variable {places others : Nat → Prop} [DecidablePred places] [DecidablePred others]

theorem underscoredAt_cons (c : Char) (rest : List Char) :
    underscoredAt places (c :: rest) =
      (if places 0 then ['_', c] else [c]) ++ underscoredAt (fun i => places (i + 1)) rest := by
  rw [underscoredAt, List.mapIdx_cons, List.flatten_cons]
  rfl

theorem underscoredAt_congr (same : ∀ i, places i ↔ others i) (text : List Char) :
    underscoredAt places text = underscoredAt others text := by
  simp only [underscoredAt, same]

theorem underscoredAt_none (none : ∀ i, ¬ places i) (text : List Char) :
    underscoredAt places text = text := by
  induction text generalizing places with
  | nil => rfl
  | cons c rest ih =>
    rw [underscoredAt_cons, if_neg (none 0), ih fun i => none (i + 1)]
    rfl

theorem map_underscoredAt {change : Char → Char} (kept : change '_' = '_') (text : List Char) :
    (underscoredAt places text).map change = underscoredAt places (text.map change) := by
  induction text generalizing places with
  | nil => rfl
  | cons c rest ih =>
    rw [List.map_cons, underscoredAt_cons, underscoredAt_cons, List.map_append, ih]
    split <;> simp only [List.map_cons, List.map_nil, kept]

theorem filter_underscoredAt (text : List Char) :
    (underscoredAt places text).filter (· ≠ '_') = text.filter (· ≠ '_') := by
  induction text generalizing places with
  | nil => rfl
  | cons c rest ih =>
    rw [underscoredAt_cons, List.filter_append, ih]
    split <;> by_cases c = '_' <;> simp [*]

theorem mem_of_mem_underscoredAt {c : Char} {text : List Char} (other : c ≠ '_')
    (shown : c ∈ underscoredAt places text) : c ∈ text := by
  have kept : c ∈ (underscoredAt places text).filter (· ≠ '_') :=
    List.mem_filter.mpr ⟨shown, decide_eq_true other⟩
  rw [filter_underscoredAt] at kept
  exact List.mem_of_mem_filter kept

end Underscored

-- The walk carries the character in front along, so the places count from there.
theorem splitWordsAfter_eq_underscoredAt (before : Char) (text : List Char) :
    splitWordsAfter before text =
      underscoredAt (fun i => WordStartsAt (before :: text) (i + 1)) text := by
  induction text generalizing before with
  | nil => rfl
  | cons c rest ih =>
    rw [splitWordsAfter, underscoredAt_cons, ih c,
      underscoredAt_congr (fun i => (wordStartsAt_cons before (c :: rest) i).symm) rest]
    by_cases starts : startsWord before c rest.head? = true
    · rw [if_pos starts, if_pos ((startsWord_iff before c rest).mp starts)]
      rfl
    · rw [if_neg starts, if_neg (mt (startsWord_iff before c rest).mpr starts)]
      rfl

theorem splitWords_eq_underscoredAt (text : List Char) :
    splitWords text = underscoredAt (WordStartsAt text) text := by
  cases text with
  | nil => rfl
  | cons c rest =>
    have inside : ¬ WordStartsAt (c :: rest) 0 := fun starts => Nat.lt_irrefl 0 starts.1
    rw [splitWords, splitWordsAfter_eq_underscoredAt, underscoredAt_cons, if_neg inside]
    rfl

-- The accented capital is a capital for lower-casing only.
example : splitWords "étatÉluURLs".toList = "étatÉlu_UR_Ls".toList := by decide

/-- A mark in a name in snake case, other than an underscore, was in the name. -/
theorem mem_snakeCase_of_mark {c : Char} (mark : isMarkOrCapital c = true) (other : c ≠ '_')
    {name : String} (shown : c ∈ (snakeCase name).toList) : c ∈ name.toList := by
  rw [snakeCase, String.toList_ofList, lowerCase] at shown
  have split := mem_lowerAfter_of_mark mark shown
  rw [splitWords_eq_underscoredAt] at split
  exact mem_of_mem_underscoredAt other split

theorem splitWords_eq_self {text : List Char} (small : ∀ c ∈ text, c.isUpper = false) :
    splitWords text = text := by
  rw [splitWords_eq_underscoredAt]
  refine underscoredAt_none ?_ text
  rintro i ⟨-, capital, -⟩
  cases found : text[i]? with
  | none =>
    rw [found] at capital
    cases capital
  | some c =>
    rw [found, Option.any_some, small c (List.mem_of_getElem? found)] at capital
    cases capital

/-- Words are split once: any lower-casing leaves no capital that could start another. -/
theorem IsLowerCasing.splitWords_again {lower : List Char → List Char}
    (lowering : IsLowerCasing lower) (text : List Char) :
    lower (splitWords (lower (splitWords text))) = lower (splitWords text) := by
  rw [splitWords_eq_self (lowering.no_capital _), lowering.again]

theorem isAscii_splitWords {text : List Char} (ascii : IsAscii text) :
    IsAscii (splitWords text) := by
  intro c split
  by_cases underscore : c = '_'
  · rw [underscore]
    decide
  · rw [splitWords_eq_underscoredAt] at split
    exact ascii c (mem_of_mem_underscoredAt underscore split)

theorem snakeCase_of_isAscii {name : String} (ascii : IsAscii name.toList) :
    (snakeCase name).toList = underscoredAt (WordStartsAt name.toList) (lowerCase name.toList) := by
  rw [snakeCase, String.toList_ofList, lowerCase_of_isAscii (isAscii_splitWords ascii),
    splitWords_eq_underscoredAt, map_underscoredAt rfl, lowerCase_of_isAscii ascii]

/-- A name in snake case stays as it is, whatever the lower-casing, as long as that is done with
after one pass and leaves no capital of ASCII. For a name of ASCII, snake case is the lower-cased
name with one underscore in front of each place where a word starts and nowhere else, so without
underscores the two are the same. -/
theorem snakeCase_idempotent_words_marked (name : String) :
    (∀ lower, IsLowerCasing lower →
      lower (splitWords (lower (splitWords name.toList))) = lower (splitWords name.toList)) ∧
    snakeCase (snakeCase name) = snakeCase name ∧
    (IsAscii name.toList →
      lowerCase name.toList = name.toList.map Char.toLower ∧
      (snakeCase name).toList =
        underscoredAt (WordStartsAt name.toList) (lowerCase name.toList) ∧
      (snakeCase name).toList.filter (· ≠ '_') =
        (lowerCase name.toList).filter (· ≠ '_')) := by
  refine ⟨fun lower lowering => lowering.splitWords_again name.toList, ?_, fun ascii => ?_⟩
  · rw [snakeCase, snakeCase, String.toList_ofList,
      isLowerCasing_lowerCase.splitWords_again name.toList]
  · have marked := snakeCase_of_isAscii ascii
    refine ⟨lowerCase_of_isAscii ascii, marked, ?_⟩
    rw [marked, filter_underscoredAt]

/-- An acronym in front of a word, one at the end with a small letter behind, and a digit. -/
theorem acronyms_and_digit_marked :
    IsLowerCasing lowerCase ∧ IsAscii "getHTTPMethod2URLs".toList ∧
    lowerCase (splitWords (lowerCase (splitWords "getHTTPMethod2URLs".toList))) =
      lowerCase (splitWords "getHTTPMethod2URLs".toList) ∧
    snakeCase (snakeCase "getHTTPMethod2URLs") = snakeCase "getHTTPMethod2URLs" ∧
    (snakeCase "getHTTPMethod2URLs").toList =
      underscoredAt (WordStartsAt "getHTTPMethod2URLs".toList)
        (lowerCase "getHTTPMethod2URLs".toList) ∧
    snakeCase "getHTTPMethod2URLs" = "get_http_method2_ur_ls" := by
  have ascii : IsAscii "getHTTPMethod2URLs".toList := by decide
  obtain ⟨again, twice, marked⟩ := snakeCase_idempotent_words_marked "getHTTPMethod2URLs"
  exact ⟨isLowerCasing_lowerCase, ascii, again lowerCase isLowerCasing_lowerCase, twice,
    (marked ascii).2.1, by decide +kernel⟩

end ApiHandbook.Text
