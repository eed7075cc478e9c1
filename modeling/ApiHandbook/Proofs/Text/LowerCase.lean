import ApiHandbook.Text.LowerCase

/-!
# What lower-casing leaves of a text

Lower-casing leads to characters that it leaves alone and that are no marks and no capitals of
ASCII. So a mark of a lower-cased text was there before, a text that is lower-cased already stays
as it is, and on ASCII lower-casing goes letter by letter.
-/
namespace ApiHandbook.Text

/-! ## Case forms -/

theorem exists_run_or_kept (c : Char) :
    (∃ run ∈ caseRuns, run.covers c.toNat = true ∧
      lowerChar c = Char.ofNat (c.toNat + run.shift).toNat) ∨
    (∀ run ∈ caseRuns, ¬ run.covers c.toNat = true) ∧ lowerChar c = c := by
  rw [lowerChar]
  cases found : caseRuns.find? (·.covers c.toNat) with
  | some run =>
    have covered := List.find?_some found
    exact .inl ⟨run, List.mem_of_find?_eq_some found, covered, rfl⟩
  | none => exact .inr ⟨List.find?_eq_none.mp found, rfl⟩

/-- All code points that the run leads to are lower-case letters of ASCII or behind ASCII. -/
def CaseRun.LeadsToLetters (run : CaseRun) : Prop :=
  97 ≤ run.first + run.shift ∧ run.last + run.shift ≤ 122 ∨
    128 ≤ run.first + run.shift ∧ run.last + run.shift < 0xD800 ∨
    0xE000 ≤ run.first + run.shift ∧ run.last + run.shift < 0x110000

instance (run : CaseRun) : Decidable run.LeadsToLetters :=
  inferInstanceAs (Decidable (_ ∨ _))

theorem caseRuns_leadToLetters : ∀ run ∈ caseRuns, run.LeadsToLetters := by
  decide +kernel

theorem toNat_shifted {run : CaseRun} (letters : run.LeadsToLetters) {n : Nat}
    (covered : run.covers n = true) :
    ((Char.ofNat (n + run.shift : Int).toNat).toNat : Int) = n + run.shift := by
  simp only [CaseRun.covers, Bool.and_eq_true, decide_eq_true_eq] at covered
  rw [CaseRun.LeadsToLetters] at letters
  have valid : (n + run.shift : Int).toNat.isValidChar := by
    unfold Nat.isValidChar
    omega
  have code_eq : (Char.ofNat (n + run.shift : Int).toNat).toNat = (n + run.shift : Int).toNat := by
    rw [Char.ofNat, dif_pos valid]
    rfl
  omega

/-- The lower-case forms that depend on the place or are more than one character. -/
def specialForms : List Char := ['ς', 'σ', 'i', '\u0307']

theorem mem_specialForms {c : Char} :
    c ∈ specialForms ↔ c = 'ς' ∨ c = 'σ' ∨ c = 'i' ∨ c = '\u0307' := by
  simp only [specialForms, List.mem_cons, List.not_mem_nil, or_false]

theorem mem_lowerAfter {c : Char} {before text : List Char} (lowered : c ∈ lowerAfter before text) :
    c ∈ specialForms ∨ ∃ d ∈ text, d ≠ 'İ' ∧ c = lowerChar d := by
  induction text generalizing before with
  | nil => cases lowered
  | cons d rest ih =>
    rw [lowerAfter] at lowered
    rcases List.mem_append.mp lowered with here | later
    · split at here
      · split at here
        all_goals
          cases List.mem_singleton.mp here
          exact .inl (by decide)
      · split at here
        · exact .inl (List.mem_append_right ['ς', 'σ'] here)
        · rename_i plain
          exact .inr ⟨d, List.mem_cons_self, plain, List.mem_singleton.mp here⟩
    · exact (ih later).imp_right fun ⟨e, listed, found⟩ => ⟨e, List.mem_cons_of_mem d listed, found⟩

theorem lowerAfter_eq_map {before text : List Char} (plain : ∀ c ∈ text, c ≠ 'Σ' ∧ c ≠ 'İ') :
    lowerAfter before text = text.map lowerChar := by
  induction text generalizing before with
  | nil => rfl
  | cons c rest ih =>
    obtain ⟨sigma, dotted⟩ := plain c List.mem_cons_self
    rw [lowerAfter, ih fun d later => plain d (List.mem_cons_of_mem c later)]
    simp only [if_neg sigma, if_neg dotted, List.map_cons, List.singleton_append]

/-! ## Marks -/

/-- A character of ASCII that is no lower-case letter. Lower-casing leads to none of these. -/
def isMarkOrCapital (c : Char) : Bool := c.toNat < 97 || 122 < c.toNat && c.toNat < 128

theorem lowerChar_eq_of_mark {c : Char} (mark : isMarkOrCapital (lowerChar c) = true) :
    lowerChar c = c := by
  obtain ⟨run, listed, covered, moved⟩ | ⟨-, kept⟩ := exists_run_or_kept c
  · have letters := caseRuns_leadToLetters run listed
    have code := toNat_shifted letters covered
    simp only [CaseRun.covers, Bool.and_eq_true, decide_eq_true_eq] at covered
    rw [CaseRun.LeadsToLetters] at letters
    simp only [moved, isMarkOrCapital, Bool.or_eq_true, Bool.and_eq_true,
      decide_eq_true_eq] at mark
    omega
  · exact kept

theorem not_isMarkOrCapital_of_special {c : Char} (special : c ∈ specialForms) :
    isMarkOrCapital c = false := by
  rcases mem_specialForms.mp special with rfl | rfl | rfl | rfl <;> decide

theorem mem_lowerAfter_of_mark {c : Char} (mark : isMarkOrCapital c = true)
    {before text : List Char} (lowered : c ∈ lowerAfter before text) : c ∈ text := by
  rcases mem_lowerAfter lowered with special | ⟨d, listed, -, rfl⟩
  · rw [not_isMarkOrCapital_of_special special] at mark
    cases mark
  · rwa [lowerChar_eq_of_mark mark]

/-! ## Settled characters -/

/-- The code points that lower-casing replaces: the runs, and the capital I with a dot. -/
def replacedRuns : List CaseRun := ⟨304, 304, 1, 0⟩ :: caseRuns

/-- Lower-casing leaves the character alone, wherever it stands. -/
def IsSettled (c : Char) : Prop := ∀ run ∈ replacedRuns, run.covers c.toNat = false

instance : DecidablePred IsSettled := fun _ => List.decidableBAll _ _

/-- Nothing that `run` leads to is covered by `other`: it lies beside the other run or, where both
take every second code point, between those of the other. Written with the comparisons that are
fast to evaluate, since all pairs of runs are gone through. -/
def CaseRun.leadsPast (run other : CaseRun) : Bool :=
  Nat.blt (run.last + run.shift).toNat other.first ||
    Nat.blt other.last (run.first + run.shift).toNat ||
    Nat.beq other.step 2 && (Nat.beq run.step 2 || Nat.beq run.first run.last) &&
      Nat.beq (((run.first + run.shift).toNat + other.first) % 2) 1

theorem caseRuns_leadPast :
    (caseRuns.all fun run => replacedRuns.all run.leadsPast) = true := by
  decide +kernel

theorem CaseRun.not_covers_shifted {run other : CaseRun} (letters : run.LeadsToLetters)
    (past : run.leadsPast other = true) {n : Nat} (covered : run.covers n = true) :
    other.covers (Char.ofNat (n + run.shift : Int).toNat).toNat = false := by
  have code := toNat_shifted letters covered
  rw [CaseRun.LeadsToLetters] at letters
  simp only [CaseRun.leadsPast, Bool.or_eq_true, Bool.and_eq_true, Nat.blt_eq, Nat.beq_eq] at past
  simp only [CaseRun.covers, Bool.and_eq_true, decide_eq_true_eq, beq_iff_eq] at covered
  rw [CaseRun.covers, Bool.eq_false_iff]
  intro again
  simp only [Bool.and_eq_true, decide_eq_true_eq, beq_iff_eq] at again
  obtain (below | above) | ⟨⟨other_twos, aligned⟩, odd⟩ := past
  · omega
  · omega
  -- Between those of the other: an odd distance from its first code point, from the start on.
  · rw [other_twos] at again
    rcases aligned with twos | single
    · rw [twos] at covered
      omega
    · omega

theorem isSettled_lowerChar {c : Char} (plain : c ≠ 'İ') : IsSettled (lowerChar c) := by
  intro other replaced
  obtain ⟨run, listed, covered, moved⟩ | ⟨uncovered, kept⟩ := exists_run_or_kept c
  · have past := List.all_eq_true.mp (List.all_eq_true.mp caseRuns_leadPast run listed)
    rw [moved]
    exact CaseRun.not_covers_shifted (caseRuns_leadToLetters run listed) (past other replaced)
      covered
  · rw [kept]
    rcases List.mem_cons.mp replaced with rfl | listed
    · have apart : c.toNat ≠ 304 := fun same => plain (Char.toNat_inj.mp same)
      simp only [CaseRun.covers, Bool.and_eq_false_iff, decide_eq_false_iff_not]
      omega
    · exact Bool.eq_false_iff.mpr (uncovered other listed)

theorem IsSettled.lowerChar_eq {c : Char} (settled : IsSettled c) : lowerChar c = c := by
  obtain ⟨run, listed, covered, -⟩ | ⟨-, kept⟩ := exists_run_or_kept c
  · rw [settled run (List.mem_cons_of_mem _ listed)] at covered
    cases covered
  · exact kept

theorem IsSettled.not_isUpper {c : Char} (settled : IsSettled c) : c.isUpper = false := by
  have outside := settled ⟨65, 90, 1, 32⟩ (List.mem_cons_of_mem _ List.mem_cons_self)
  rw [Bool.eq_false_iff]
  intro capital
  have bounds : 65 ≤ c.toNat ∧ c.toNat ≤ 90 := of_decide_eq_true capital
  simp only [CaseRun.covers, Nat.mod_one, beq_self_eq_true, Bool.and_true, Bool.and_eq_false_iff,
    decide_eq_false_iff_not] at outside
  omega

theorem isSettled_of_special {c : Char} (special : c ∈ specialForms) : IsSettled c := by
  rcases mem_specialForms.mp special with rfl | rfl | rfl | rfl <;> decide +kernel

theorem isSettled_of_mem_lowerAfter {c : Char} {before text : List Char}
    (lowered : c ∈ lowerAfter before text) : IsSettled c := by
  rcases mem_lowerAfter lowered with special | ⟨d, -, plain, rfl⟩
  · exact isSettled_of_special special
  · exact isSettled_lowerChar plain

theorem IsSettled.plain {c : Char} (settled : IsSettled c) : c ≠ 'Σ' ∧ c ≠ 'İ' := by
  constructor <;> rintro rfl <;> exact absurd settled (by decide +kernel)

theorem lowerAfter_settled {before text : List Char} (settled : ∀ c ∈ text, IsSettled c) :
    lowerAfter before text = text := by
  rw [lowerAfter_eq_map fun c listed => (settled c listed).plain]
  exact (List.map_congr_left fun c listed => (settled c listed).lowerChar_eq).trans
    (List.map_id text)

/-- All that the form of names needs of lower-casing. -/
structure IsLowerCasing (lower : List Char → List Char) : Prop where
  again : ∀ text, lower (lower text) = lower text
  no_capital : ∀ text, ∀ c ∈ lower text, c.isUpper = false

theorem isLowerCasing_lowerCase : IsLowerCasing lowerCase where
  again _ := lowerAfter_settled fun _ => isSettled_of_mem_lowerAfter
  no_capital _ _ lowered := (isSettled_of_mem_lowerAfter lowered).not_isUpper

/-! ## ASCII -/

def IsAscii (text : List Char) : Prop := ∀ c ∈ text, c.toNat < 128

instance : DecidablePred IsAscii := fun _ => List.decidableBAll _ _

theorem toLower_ofNat_ascii : ∀ n < 128, (Char.ofNat n).toLower =
    if 65 ≤ n ∧ n ≤ 90 then Char.ofNat (n + 32) else Char.ofNat n := by
  decide +kernel

theorem capitals_or_behind_ascii : ∀ run ∈ caseRuns, run = ⟨65, 90, 1, 32⟩ ∨ 128 ≤ run.first := by
  decide +kernel

theorem lowerChar_of_ascii {c : Char} (ascii : c.toNat < 128) : lowerChar c = c.toLower := by
  have lowered := toLower_ofNat_ascii c.toNat ascii
  rw [Char.ofNat_toNat] at lowered
  obtain ⟨run, listed, covered, moved⟩ | ⟨uncovered, kept⟩ := exists_run_or_kept c
  · simp only [CaseRun.covers, Bool.and_eq_true, decide_eq_true_eq] at covered
    rcases capitals_or_behind_ascii run listed with rfl | behind
    · rw [lowered, if_pos covered.1, moved]
      rfl
    · omega
  · have outside := uncovered ⟨65, 90, 1, 32⟩ List.mem_cons_self
    simp only [CaseRun.covers, Nat.mod_one, beq_self_eq_true, Bool.and_true, Bool.and_eq_true,
      decide_eq_true_eq] at outside
    rw [lowered, if_neg outside, kept]

theorem lowerCase_of_isAscii {text : List Char} (ascii : IsAscii text) :
    lowerCase text = text.map Char.toLower := by
  have plain : ∀ c ∈ text, c ≠ 'Σ' ∧ c ≠ 'İ' := by
    intro c listed
    have code := ascii c listed
    constructor <;> rintro rfl <;> exact absurd code (by decide)
  rw [lowerCase, lowerAfter_eq_map plain]
  exact List.map_congr_left fun c listed => lowerChar_of_ascii (ascii c listed)

end ApiHandbook.Text
