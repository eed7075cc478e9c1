/-!
# Control sequences

A terminal takes an escape character and a bracket for the start of a command: parameters,
intermediate characters and one final character follow. Where there is no terminal, such sequences
are left out. What only starts like one stays.
-/
namespace ApiHandbook.Text

def isParameter (c : Char) : Bool := '0' ≤ c && c ≤ '?'

def isIntermediate (c : Char) : Bool := ' ' ≤ c && c ≤ '/'

def isFinal (c : Char) : Bool := '@' ≤ c && c ≤ '~'

/-- The text behind a control sequence whose escape character and bracket have been passed. -/
def behindSequence? (text : List Char) : Option (List Char) :=
  match (text.dropWhile isParameter).dropWhile isIntermediate with
  | c :: rest => if isFinal c then some rest else none
  | [] => none

theorem length_lt_of_behindSequence? {text rest : List Char}
    (h : behindSequence? text = some rest) : rest.length < text.length := by
  unfold behindSequence? at h
  split at h
  · rename_i c after found
    have outer := (List.dropWhile_suffix (l := text.dropWhile isParameter)
      (p := isIntermediate)).length_le
    have inner := (List.dropWhile_suffix (l := text) (p := isParameter)).length_le
    split at h
    · cases h
      rw [found, List.length_cons] at outer
      omega
    · cases h
  · cases h

/-- The text without its control sequences. -/
def withoutControls : List Char → List Char
  | [] => []
  | '\x1b' :: '[' :: text =>
    match behind : behindSequence? text with
    | some rest =>
      have := length_lt_of_behindSequence? behind
      withoutControls rest
    | none => '\x1b' :: withoutControls ('[' :: text)
  | c :: text => c :: withoutControls text
termination_by text => text.length
decreasing_by all_goals simp only [List.length_cons]; omega

/-- A text without escape characters has no control sequences. -/
theorem withoutControls_eq_self (text : List Char) (h : '\x1b' ∉ text) :
    withoutControls text = text := by
  induction text with
  | nil => rw [withoutControls]
  | cons c rest ih =>
    rw [List.mem_cons, not_or] at h
    rw [withoutControls]
    · rw [ih h.2]
    · intro text escape _
      exact absurd escape.symm h.1

end ApiHandbook.Text
