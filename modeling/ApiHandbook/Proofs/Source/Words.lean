import ApiHandbook.Proofs.Source.Literals
import ApiHandbook.Proofs.Source.Spelling

/-!
# What tokens look like

Numbers, names, marks and literals, each by its own rules. What is cut off as a token looks like
one, and what looks like a token is cut off as that token wherever white space or the end of the
text stands behind it.
-/
namespace ApiHandbook.Source
open Text

/-! ## Texts that stand apart -/

/-- White space, or nothing, comes first. -/
def SetOff (rest : List Char) : Prop := ∀ c ∈ rest.head?, isInlineBlank c = true ∨ c = '\n'

theorem setOff_nil : SetOff [] := nofun

theorem setOff_cons {c : Char} (white : isInlineBlank c = true ∨ c = '\n') (rest : List Char) :
    SetOff (c :: rest) := by
  rintro d ⟨⟩
  exact white

/-- Nothing that passes a test begins a text that stands apart, if no white space passes it. -/
theorem SetOff.fails {rest : List Char} (apart : SetOff rest) (test : Char → Bool)
    (outside : [' ', '\t', '\r', '\x0c', '\x0b', '\n'].any test = false) :
    ∀ c ∈ rest.head?, test c = false := by
  intro c at_head
  have white : c ∈ [' ', '\t', '\r', '\x0c', '\x0b', '\n'] := by
    have one := apart c at_head
    simp only [isInlineBlank, Bool.or_eq_true, decide_eq_true_eq] at one
    simp only [List.mem_cons, List.not_mem_nil, or_false]
    tauto
  exact Bool.eq_false_iff.mpr (List.any_eq_false.mp outside c white)

/-! ## Numbers -/

def IsFraction (text : List Char) : Prop :=
  text = [] ∨ ∃ d more, text = '.' :: d :: more ∧ isDecimal d = true ∧
    ∀ c ∈ more, isDecimalOrUnderscore c = true

def IsExponent (text : List Char) : Prop :=
  text = [] ∨ ∃ letter sign digits, text = letter :: (sign ++ digits) ∧
    (letter = 'e' ∨ letter = 'E') ∧ sign ∈ [[], ['+'], ['-']] ∧ digits ≠ [] ∧
    ∀ d ∈ digits, isDecimal d = true

/-- A number with a radix letter, or a decimal one with a fraction and an exponent if need be. -/
inductive IsNumber : List Char → Prop
  | radix {r : Char} {digits : List Char} (letter : r ∈ ['x', 'o', 'b']) (nonempty : digits ≠ [])
      (hex : ∀ d ∈ digits, isHexOrUnderscore d = true) : IsNumber ('0' :: r :: digits)
  | decimal {c : Char} {whole fraction exponent : List Char} (digit : isDecimal c = true)
      (further : ∀ d ∈ whole, isDecimalOrUnderscore d = true) (point : IsFraction fraction)
      (power : IsExponent exponent) : IsNumber (c :: (whole ++ (fraction ++ exponent)))

theorem mem_takeWhile {test : Char → Bool} {text : List Char} :
    ∀ c ∈ text.takeWhile test, test c = true :=
  fun c member => List.all_eq_true.mp List.all_takeWhile c member

theorem radixLength_sound {rest : List Char} {length : Nat}
    (found : radixLength rest = some length) :
    ∃ r digits, rest.take length = r :: digits ∧ r ∈ ['x', 'o', 'b'] ∧ digits ≠ [] ∧
      ∀ d ∈ digits, isHexOrUnderscore d = true := by
  cases rest with
  | nil => cases found
  | cons r rest =>
    simp only [radixLength] at found
    split at found
    · rename_i shape
      cases found
      simp only [Bool.and_eq_true, Bool.or_eq_true, decide_eq_true_eq] at shape
      refine ⟨r, rest.takeWhile isHexOrUnderscore, ?_, ?_, ?_, mem_takeWhile⟩
      · rw [Nat.add_comm, List.take_succ_cons, take_takeWhile]
      · simpa [or_assoc] using shape.1
      · exact fun empty => shape.2 (by rw [empty]; rfl)
    · cases found

theorem fractionLength_sound (rest : List Char) : IsFraction (rest.take (fractionLength rest)) := by
  fun_cases fractionLength rest with
  | case1 d rest digit =>
    refine .inr ⟨d, rest.takeWhile isDecimalOrUnderscore, ?_, digit, mem_takeWhile⟩
    rw [Nat.add_comm, List.take_succ_cons, List.take_succ_cons, take_takeWhile]
  | case2 d rest no_digit => exact .inl rfl
  | case3 => exact .inl rfl

theorem exists_sign (rest : List Char) :
    ∃ sign digits, rest = sign ++ digits ∧ sign ∈ [[], ['+'], ['-']] ∧
      sign.length = if rest.head?.any fun s => s = '+' || s = '-' then 1 else 0 := by
  cases rest with
  | nil => exact ⟨[], [], rfl, List.mem_cons_self, rfl⟩
  | cons s more =>
    by_cases plus : s = '+'
    · exact ⟨['+'], more, by rw [plus]; rfl, by simp, by simp [plus]⟩
    · by_cases minus : s = '-'
      · exact ⟨['-'], more, by rw [minus]; rfl, by simp, by simp [minus]⟩
      · exact ⟨[], s :: more, rfl, List.mem_cons_self, by simp [plus, minus]⟩

theorem exponentLength_sound (rest : List Char) : IsExponent (rest.take (exponentLength rest)) := by
  cases rest with
  | nil => exact .inl rfl
  | cons letter rest =>
    obtain ⟨sign, digits, rfl, listed, size⟩ := exists_sign rest
    simp only [exponentLength, ← size, List.drop_left]
    split
    · rename_i shape
      simp only [Bool.and_eq_true, Bool.or_eq_true, decide_eq_true_eq] at shape
      refine .inr ⟨letter, sign, digits.takeWhile isDecimal, ?_, shape.1, listed, ?_, mem_takeWhile⟩
      · rw [Nat.add_assoc, Nat.add_comm 1, List.take_succ_cons, List.take_length_add_append,
          take_takeWhile]
      · exact fun empty => shape.2 (by rw [empty]; rfl)
    · exact .inl rfl

theorem numberLength_sound {c : Char} {rest : List Char} {length : Nat}
    (found : numberLength c rest = some length) : IsNumber (c :: rest.take length) := by
  unfold numberLength at found
  split at found
  · rename_i radix
    cases found
    split at radix
    · rename_i zero
      obtain ⟨r, digits, text_eq, letter, nonempty, hex⟩ := radixLength_sound radix
      rw [zero, text_eq]
      exact .radix letter nonempty hex
    · cases radix
  · split at found
    · rename_i digit
      cases found
      rw [Nat.add_assoc, List.take_add, take_takeWhile, List.take_add, List.drop_drop]
      exact .decimal digit mem_takeWhile (fractionLength_sound _) (exponentLength_sound _)
    · cases found

/-- What can stand behind the digits of a number that ends in front of white space. -/
theorem head_exponent {exponent after : List Char} (power : IsExponent exponent)
    (apart : SetOff after) {test : Char → Bool}
    (outside : ['e', 'E', ' ', '\t', '\r', '\x0c', '\x0b', '\n'].any test = false) :
    ∀ c ∈ (exponent ++ after).head?, test c = false := by
  simp only [List.any_cons, Bool.or_eq_false_iff] at outside
  rcases power with rfl | ⟨letter, sign, digits, rfl, rfl | rfl, -⟩
  · exact apart.fails _ (by simp [outside])
  · rintro c ⟨⟩
    exact outside.1
  · rintro c ⟨⟩
    exact outside.2.1

theorem head_fraction {fraction exponent after : List Char} (point : IsFraction fraction)
    (power : IsExponent exponent) (apart : SetOff after) {test : Char → Bool}
    (outside : ['.', 'e', 'E', ' ', '\t', '\r', '\x0c', '\x0b', '\n'].any test = false) :
    ∀ c ∈ (fraction ++ (exponent ++ after)).head?, test c = false := by
  simp only [List.any_cons, Bool.or_eq_false_iff] at outside
  rcases point with rfl | ⟨d, more, rfl, -⟩
  · exact head_exponent power apart (by simp [outside])
  · rintro c ⟨⟩
    exact outside.1

theorem exponentLength_complete {exponent after : List Char} (power : IsExponent exponent)
    (apart : SetOff after) : exponentLength (exponent ++ after) = exponent.length := by
  rcases power with rfl | ⟨letter, sign, digits, rfl, shape, listed, nonempty, decimal⟩
  · cases after with
    | nil => rfl
    | cons c after =>
      have other := apart.fails (fun c => c = 'e' || c = 'E') rfl c rfl
      rw [List.nil_append, exponentLength]
      simp only [other, Bool.false_and, Bool.false_eq_true, if_false, List.length_nil]
  · have run : (digits ++ after).takeWhile isDecimal = digits :=
      takeWhile_before decimal (apart.fails _ rfl)
    have size : (if (sign ++ (digits ++ after)).head?.any fun s => s = '+' || s = '-' then 1
        else 0) = sign.length := by
      obtain ⟨d, more, rfl⟩ := List.exists_cons_of_ne_nil nonempty
      have digit := decimal d List.mem_cons_self
      simp only [List.mem_cons, List.not_mem_nil, or_false] at listed
      rcases listed with rfl | rfl | rfl
      · simp [ne_of_test digit '+' rfl, ne_of_test digit '-' rfl]
      · rfl
      · rfl
    have letters : (letter = 'e' || letter = 'E') = true := by simpa using shape
    rw [List.cons_append, List.append_assoc, exponentLength]
    simp only [size, List.drop_left, run, letters, Bool.true_and]
    rw [if_pos (by simpa using nonempty), List.length_cons, List.length_append]
    omega

theorem fractionLength_eq_zero {rest : List Char}
    (no_point : ∀ c ∈ rest.head?, (c == '.') = false) : fractionLength rest = 0 := by
  fun_cases fractionLength rest with
  | case1 d rest digit => cases no_point '.' rfl
  | case2 | case3 => rfl

theorem fractionLength_complete {fraction exponent after : List Char} (point : IsFraction fraction)
    (power : IsExponent exponent) (apart : SetOff after) :
    fractionLength (fraction ++ (exponent ++ after)) = fraction.length := by
  rcases point with rfl | ⟨d, more, rfl, digit, further⟩
  · exact fractionLength_eq_zero (head_exponent power apart rfl)
  · have run : (more ++ (exponent ++ after)).takeWhile isDecimalOrUnderscore = more :=
      takeWhile_before further (head_exponent power apart rfl)
    rw [List.cons_append, List.cons_append, fractionLength, if_pos digit, run, List.length_cons,
      List.length_cons]
    omega

theorem radixLength_eq_none {rest : List Char}
    (no_radix : ∀ c ∈ rest.head?, (c = 'x' || c = 'o' || c = 'b') = false) :
    radixLength rest = none := by
  cases rest with
  | nil => rfl
  | cons r rest =>
    rw [radixLength]
    simp only [no_radix r rfl, Bool.false_and, Bool.false_eq_true, if_false]

theorem numberLength_complete {c : Char} {more after : List Char} (shape : IsNumber (c :: more))
    (apart : SetOff after) : numberLength c (more ++ after) = some more.length := by
  cases shape with
  | @radix r digits letter nonempty hex =>
    have run : (digits ++ after).takeWhile isHexOrUnderscore = digits :=
      takeWhile_before hex (apart.fails _ rfl)
    have letters : (r = 'x' || r = 'o' || r = 'b') = true := by simpa [or_assoc] using letter
    have radix : radixLength (r :: digits ++ after) = some (r :: digits).length := by
      rw [List.cons_append, radixLength]
      simp only [run, letters, Bool.true_and]
      rw [if_pos (by simpa using nonempty), List.length_cons, Nat.add_comm]
    rw [numberLength, if_pos rfl, radix]
  | @decimal c whole fraction exponent digit further point power =>
    have no_radix : ∀ c ∈ (whole ++ (fraction ++ (exponent ++ after))).head?,
        (c = 'x' || c = 'o' || c = 'b') = false := by
      cases whole with
      | nil => exact head_fraction point power apart rfl
      | cons d whole =>
        rintro e ⟨⟩
        have different := ne_of_test (further d List.mem_cons_self)
        simp [different 'x' rfl, different 'o' rfl, different 'b' rfl]
    have radix : (if c = '0' then radixLength (whole ++ (fraction ++ (exponent ++ after)))
        else none) = none := by
      split
      · exact radixLength_eq_none no_radix
      · rfl
    have run : (whole ++ (fraction ++ (exponent ++ after))).takeWhile isDecimalOrUnderscore =
        whole := takeWhile_before further (head_fraction point power apart rfl)
    have behind : (whole ++ (fraction ++ (exponent ++ after))).drop
        (whole.length + fraction.length) = exponent ++ after := by
      rw [← List.append_assoc, ← List.length_append, List.drop_left]
    rw [List.append_assoc, List.append_assoc, numberLength, radix]
    simp only [digit, if_true, run, List.drop_left, fractionLength_complete point power apart,
      behind, exponentLength_complete power apart, List.length_append, Nat.add_assoc]

theorem not_mem_of_test {test : Char → Bool} {text : List Char}
    (inside : ∀ d ∈ text, test d = true) (c : Char) (outside : test c = false) : c ∉ text := by
  intro member
  rw [inside c member] at outside
  cases outside

theorem IsNumber.one_line {text : List Char} (shape : IsNumber text) : '\n' ∉ text := by
  cases shape with
  | @radix r digits letter _ hex =>
    have other : '\n' ≠ r := by
      rintro rfl
      exact absurd letter (by decide)
    simp [other, not_mem_of_test hex '\n' rfl]
  | @decimal c whole fraction exponent digit further point power =>
    have in_fraction : '\n' ∉ fraction := by
      rcases point with rfl | ⟨d, more, rfl, decimal, behind⟩
      · exact List.not_mem_nil
      · simp [not_mem_of_test behind '\n' rfl, Ne.symm (ne_of_test decimal '\n' rfl)]
    have in_exponent : '\n' ∉ exponent := by
      rcases power with rfl | ⟨letter, sign, digits, rfl, shape, listed, -, decimal⟩
      · exact List.not_mem_nil
      · have in_sign : '\n' ∉ sign := by
          simp only [List.mem_cons, List.not_mem_nil, or_false] at listed
          rcases listed with rfl | rfl | rfl <;> decide
        rcases shape with rfl | rfl <;> simp [in_sign, not_mem_of_test decimal '\n' rfl]
    simp [in_fraction, in_exponent, not_mem_of_test further '\n' rfl,
      Ne.symm (ne_of_test digit '\n' rfl)]

/-! ## Marks -/

def marks : List (List Char) :=
  ['-', '>'] :: ['.', '.', '.'] :: ['.', '.', '<'] :: markChars.map ([·])

theorem markLength_sound {c : Char} {rest : List Char} {length : Nat}
    (found : markLength c rest = some length) : c :: rest.take length ∈ marks := by
  unfold markLength at found
  split at found
  · cases found
    exact .head _
  · cases found
    exact .tail _ (.head _)
  · cases found
    exact .tail _ (.tail _ (.head _))
  · split at found
    · rename_i listed
      cases found
      have single : [c] ∈ markChars.map ([·]) := List.mem_map_of_mem (by simpa using listed)
      simp [marks, single]
    · cases found

theorem markLength_complete {c : Char} {more after : List Char} (listed : c :: more ∈ marks)
    (apart : SetOff after) : markLength c (more ++ after) = some more.length := by
  simp only [marks, List.mem_cons, List.cons.injEq, List.mem_map] at listed
  rcases listed with ⟨rfl, rfl⟩ | ⟨rfl, rfl⟩ | ⟨rfl, rfl⟩ | ⟨d, listed, rfl, rfl⟩
  · rfl
  · rfl
  · rfl
  · have no_mark : ∀ e ∈ after.head?, (e = '>' || e = '.') = false := apart.fails _ rfl
    rw [List.nil_append]
    unfold markLength
    split
    · cases no_mark _ rfl
    · cases no_mark _ rfl
    · cases no_mark _ rfl
    · simp [listed]

theorem head_marks {c : Char} {more : List Char} (listed : c :: more ∈ marks) :
    c ∈ markChars := by
  have heads : ∀ mark ∈ marks, mark.head?.all markChars.contains = true := by decide
  simpa using heads _ listed

/-! ## Words and how they are written -/

/-- How a word stands in a source, with the number of escaped line breaks in it. -/
inductive WrittenAs : Word → List Char → (escaped : Nat) → Prop
  | number {raw : List Char} (shape : IsNumber raw) :
      WrittenAs { kind := .number, text := String.ofList raw } raw 0
  | name {raw : List Char} (identifier : isIdentifier raw = true) :
      WrittenAs (.name (String.ofList raw)) raw 0
  | accented {raw : List Char} (identifier : isIdentifier raw = true) :
      WrittenAs (.name (String.ofList raw)) ('\x60' :: raw ++ ['\x60']) 0
  | mark {raw : List Char} (listed : raw ∈ marks) : WrittenAs (.mark (String.ofList raw)) raw 0
  | literal {fence : Fence} {shown : List (Option Char)} {escaped : Nat} {inner : List Char}
      (body : LiteralBody (.text fence) shown escaped inner) :
      WrittenAs
        { kind := .string, text := String.ofList (fence.quotes ++ (inner ++ fence.quotes)),
          segments := stretches [] shown }
        (fence.quotes ++ (inner ++ fence.quotes)) escaped

/-- The word that a piece is kept as. -/
def Piece.word? (piece : Piece) : Option Word :=
  match piece.kind with
  | .number => some { kind := .number, text := String.ofList piece.raw }
  | .name => some (.name (nameText piece.raw))
  | .mark => some (.mark (String.ofList piece.raw))
  | .literal segments => some { kind := .string, text := String.ofList piece.raw, segments }
  | .blank | .lineBreak | .lineComment | .blockComment => none

theorem tokensFrom_word {piece : Piece} {word : Word} (kept : piece.word? = some word) (line : Nat)
    (startsLine : Bool) (comments : List String) (rest : List Piece) :
    tokensFrom line startsLine comments (piece :: rest) =
      (tokensFrom (line + piece.breaks) false [] rest).cons
        (word.token line startsLine comments) := by
  obtain ⟨kind, raw, breaks⟩ := piece
  cases kind <;> cases kept <;> rfl

theorem scan_word {line breaks : Nat} {c : Char} {more rest : List Char} {kind : PieceKind}
    {word : Word} (front : frontExtent line c (more ++ rest) = .ok ⟨kind, more.length, breaks⟩)
    (kept : Piece.word? ⟨kind, c :: more, breaks⟩ = some word) (startsLine : Bool)
    (comments : List String) :
    scan line startsLine comments (c :: more ++ rest) =
      (scan (line + breaks) false [] rest).map (.cons (word.token line startsLine comments)) := by
  rw [scan_front front, scan]
  cases piecesFrom (line + breaks) rest with
  | error fault => rfl
  | ok others => exact congrArg Except.ok (tokensFrom_word kept line startsLine comments others)

theorem WrittenAs.unaccented {word : Word} {lexeme : List Char} {escaped : Nat}
    (written : WrittenAs word lexeme escaped) : WrittenAs word word.text.toList escaped := by
  cases written with
  | number shape =>
    rw [String.toList_ofList]
    exact .number shape
  | name identifier | accented identifier =>
    rw [Word.name, String.toList_ofList]
    exact .name identifier
  | mark listed =>
    rw [Word.mark, String.toList_ofList]
    exact .mark listed
  | literal body =>
    rw [String.toList_ofList]
    exact .literal body

theorem nameLength_written {c : Char} {rest : List Char} {length : Nat}
    (found : nameLength c rest = some length) :
    WrittenAs (.name (nameText (c :: rest.take length))) (c :: rest.take length) 0 ∧
      '\n' ∉ c :: rest.take length := by
  obtain ⟨raw, identifier, shape⟩ := nameLength_identifier found
  have one_line : '\n' ∉ raw := not_mem_of_test (isIdentifier_isNameChar identifier) '\n' rfl
  have text_eq : nameText raw = String.ofList raw := by
    rw [← String.toList_inj, nameText_of_identifier identifier, String.toList_ofList]
  rcases shape with plain | accented
  · rw [plain, text_eq]
    exact ⟨.name identifier, one_line⟩
  · rw [accented, nameText_between_accents, text_eq]
    exact ⟨.accented identifier, by simp [one_line]⟩

theorem wordExtent?_written {c : Char} {rest : List Char} {extent : Extent} {word : Word}
    (found : wordExtent? c rest = some extent)
    (kept : Piece.word? ⟨extent.kind, c :: rest.take extent.more, extent.breaks⟩ = some word) :
    WrittenAs word (c :: rest.take extent.more) 0 ∧
      extent.breaks + 0 = (c :: rest.take extent.more).count '\n' := by
  simp only [wordExtent?, Option.orElse_eq_orElse, Option.orElse_eq_or, Option.or_eq_some_iff,
    Option.map_eq_some_iff] at found
  rcases found with ⟨length, number, rfl⟩ | ⟨_, ⟨length, name, rfl⟩ | ⟨_, length, mark, rfl⟩⟩
  · cases kept
    have shape := numberLength_sound number
    exact ⟨.number shape, (List.count_eq_zero.mpr shape.one_line).symm⟩
  · cases kept
    have shape := nameLength_written name
    exact ⟨shape.1, (List.count_eq_zero.mpr shape.2).symm⟩
  · cases kept
    have listed := markLength_sound mark
    have one_line : ∀ mark ∈ marks, '\n' ∉ mark := by decide
    exact ⟨.mark listed, (List.count_eq_zero.mpr (one_line _ listed)).symm⟩

theorem literalExtent_written {line : Nat} {rest : List Char} {extent : LiteralExtent}
    (found : literalExtent line rest = .ok extent) :
    ∃ escaped,
      WrittenAs
        { kind := .string, text := String.ofList ('"' :: rest.take extent.length),
          segments := extent.segments }
        ('"' :: rest.take extent.length) escaped ∧
      extent.breaks + escaped = ('"' :: rest.take extent.length).count '\n' := by
  obtain ⟨fence, shown, escaped, inner, after, body, rfl, rfl⟩ := literalExtent_sound found
  have quotes : '"' :: fence.quotes.tail = fence.quotes := by cases fence <;> rfl
  have no_break : fence.quotes.count '\n' = 0 := by cases fence <;> rfl
  dsimp only
  rw [List.take_left, ← List.cons_append, quotes]
  refine ⟨escaped, .literal body, ?_⟩
  rw [List.count_append, List.count_append, no_break, Nat.add_zero, Nat.zero_add]
  exact Nat.sub_add_cancel body.escaped_le

/-- Whether neither white space nor a comment comes first. -/
def beginsToken : List Char → Bool
  | [] => false
  | c :: rest => !(isInlineBlank c || c = '\n' ||
      c = '/' && (rest.head? = some '/' || rest.head? = some '*'))

/-- What is cut off as a token looks like one, and all its line breaks count but the escaped
ones. -/
theorem frontExtent_written {line : Nat} {c : Char} {rest : List Char} {extent : Extent}
    {word : Word} (success : frontExtent line c rest = .ok extent)
    (kept : Piece.word? ⟨extent.kind, c :: rest.take extent.more, extent.breaks⟩ = some word) :
    beginsToken (c :: rest) = true ∧
      ∃ escaped, WrittenAs word (c :: rest.take extent.more) escaped ∧
      extent.breaks + escaped = (c :: rest.take extent.more).count '\n' := by
  unfold frontExtent at success
  split at success
  · split at success
    · cases success
      cases kept
    · cases success
  · rename_i no_block
    split at success
    · rename_i quote
      obtain ⟨literal, found, made⟩ := ok_of_bind success
      cases made
      cases kept
      subst quote
      exact ⟨rfl, literalExtent_written found⟩
    · split at success
      · cases success
        cases kept
      · rename_i no_blank
        split at success
        · cases success
          cases kept
        · rename_i no_break
          split at success
          · cases success
            cases kept
          · rename_i no_line
            split at success
            · rename_i found
              cases success
              refine ⟨?_, 0, wordExtent?_written found kept⟩
              simp only [Bool.and_eq_true, decide_eq_true_eq, not_and] at no_block no_line
              simp only [beginsToken, no_blank, no_break, Bool.not_eq_true', Bool.false_or,
                decide_false, Bool.and_eq_false_imp, Bool.or_eq_false_iff, decide_eq_true_eq,
                decide_eq_false_iff_not]
              exact fun slash => ⟨no_line slash, no_block slash⟩
            · cases success

theorem frontExtent_mark {line length : Nat} {c : Char} {rest : List Char}
    (listed : c ∈ markChars) (found : markLength c rest = some length)
    (no_comment : ∀ d ∈ rest.head?, (d = '*' || d = '/') = false) :
    frontExtent line c rest = .ok ⟨.mark, length, 0⟩ := by
  have fails : ∀ test : Char → Bool, markChars.any test = false → test c = false :=
    fun test outside => Bool.eq_false_iff.mpr (List.any_eq_false.mp outside c listed)
  have other : ∀ d ∉ markChars, c ≠ d := fun d absent same => absent (same ▸ listed)
  have no_digit := fails isDecimal (by decide)
  have no_start := fails isNameStart (by decide)
  have no_blank := fails isInlineBlank (by decide)
  have no_zero := other '0' (by decide)
  have no_accent := other '\x60' (by decide)
  have no_break := other '\n' (by decide)
  have no_quote := other '"' (by decide)
  have word : wordExtent? c rest = some ⟨.mark, length, 0⟩ := by
    rw [wordExtent?, numberLength, if_neg no_zero, nameLength, found]
    simp [no_digit, no_start, no_accent]
  have no_star : rest.head? ≠ some '*' := fun at_head => by cases no_comment '*' at_head
  have no_slash : rest.head? ≠ some '/' := fun at_head => by cases no_comment '/' at_head
  simp only [frontExtent, no_star, no_slash, no_quote, no_blank, no_break, word, decide_false,
    Bool.and_false, Bool.false_eq_true, if_false]

theorem IsNumber.digit {c : Char} {more : List Char} (shape : IsNumber (c :: more)) :
    isDecimal c = true := by
  cases shape with
  | radix => rfl
  | decimal digit => exact digit

/-- What looks like a token is cut off as that token in front of white space and at the end. -/
theorem WrittenAs.front {word : Word} {lexeme : List Char} {escaped counted : Nat}
    (written : WrittenAs word lexeme escaped) (plain : lexeme = word.text.toList)
    (count : counted + escaped = lexeme.count '\n') :
    ∃ c more kind, lexeme = c :: more ∧ Piece.word? ⟨kind, lexeme, counted⟩ = some word ∧
      ∀ line after, SetOff after →
        frontExtent line c (more ++ after) = .ok ⟨kind, more.length, counted⟩ := by
  cases written with
  | number shape =>
    obtain rfl : counted = 0 := by simpa [List.count_eq_zero.mpr shape.one_line] using count
    obtain ⟨c, more, rfl⟩ : ∃ c more, lexeme = c :: more := by cases shape <;> exact ⟨_, _, rfl⟩
    refine ⟨c, more, .number, rfl, rfl, fun line after apart => ?_⟩
    exact frontExtent_number shape.digit (numberLength_complete shape apart)
  | name identifier =>
    have chars := isIdentifier_isNameChar identifier
    obtain rfl : counted = 0 := by
      simpa [List.count_eq_zero.mpr (not_mem_of_test chars '\n' rfl)] using count
    have text_eq : nameText lexeme = String.ofList lexeme := by
      rw [← String.toList_inj, nameText_of_identifier identifier, String.toList_ofList]
    cases lexeme with
    | nil => cases identifier
    | cons c more =>
      rw [isIdentifier, Bool.and_eq_true] at identifier
      refine ⟨c, more, .name, rfl, by simp only [Piece.word?, text_eq], fun line after apart => ?_⟩
      have inside : ∀ d ∈ more, isNameChar d = true :=
        fun d member => chars d (List.mem_cons_of_mem _ member)
      rw [frontExtent_name identifier.1, takeWhile_before inside (apart.fails _ rfl)]
  | accented identifier =>
    have lengths := congrArg List.length plain
    simp only [Word.name, String.toList_ofList, List.cons_append, List.length_cons,
      List.length_append, List.length_nil] at lengths
    omega
  | mark listed =>
    have shapes : ∀ mark ∈ marks, mark ≠ [] ∧ '\n' ∉ mark ∧
        mark.tail.head?.all (fun d => !(d = '*' || d = '/')) = true := by decide
    obtain ⟨nonempty, one_line, no_comment⟩ := shapes lexeme listed
    obtain rfl : counted = 0 := by simpa [List.count_eq_zero.mpr one_line] using count
    obtain ⟨c, more, rfl⟩ := List.exists_cons_of_ne_nil nonempty
    refine ⟨c, more, .mark, rfl, rfl, fun line after apart => ?_⟩
    refine frontExtent_mark (head_marks listed) (markLength_complete listed apart) ?_
    cases more with
    | nil => exact apart.fails _ rfl
    | cons d more =>
      rintro e ⟨⟩
      simpa using no_comment
  | @literal fence shown _ inner body =>
    have no_break : fence.quotes.count '\n' = 0 := by cases fence <;> rfl
    have inside : counted + escaped = inner.count '\n' := by
      simpa [no_break] using count
    have quotes : fence.quotes ++ (inner ++ fence.quotes) =
        '"' :: (fence.quotes.tail ++ (inner ++ fence.quotes)) := by cases fence <;> rfl
    refine ⟨'"', _, .literal (stretches [] shown), quotes, rfl, fun line after apart => ?_⟩
    -- Only an empty literal needs this: in front of a quote it would open one with three quotes.
    have no_quote : fence = .single → inner = [] → after.head? ≠ some '"' := by
      intro _ _ at_head
      rcases apart '"' at_head with blank | lineBreak
      · cases blank
      · cases lineBreak
    rw [frontExtent, if_neg (by simp), if_pos rfl, literalExtent_complete body inside no_quote]
    rfl

theorem WrittenAs.nonempty {word : Word} {lexeme : List Char} {escaped : Nat}
    (written : WrittenAs word lexeme escaped) : lexeme ≠ [] := by
  cases written with
  | number shape => cases shape <;> exact List.cons_ne_nil _ _
  | name identifier =>
    rintro rfl
    cases identifier
  | accented => exact List.cons_ne_nil _ _
  | mark listed =>
    rintro rfl
    exact absurd listed (by decide)
  | @literal fence => cases fence <;> exact List.cons_ne_nil _ _

theorem WrittenAs.escaped_le {word : Word} {lexeme : List Char} {escaped : Nat}
    (written : WrittenAs word lexeme escaped) : escaped ≤ lexeme.count '\n' := by
  cases written with
  | number | name | accented | mark => exact Nat.zero_le _
  | literal body =>
    have inside := body.escaped_le
    simp only [List.count_append]
    omega

/-- A word that is written without accents is read as that word in front of white space and at the
end. -/
theorem WrittenAs.scan {word : Word} {escaped : Nat}
    (written : WrittenAs word word.text.toList escaped) (line : Nat) (startsLine : Bool)
    (comments : List String) {after : List Char} (apart : SetOff after) :
    ∃ next, Source.scan line startsLine comments (word.text.toList ++ after) =
      (Source.scan next false [] after).map (.cons (word.token line startsLine comments)) := by
  obtain ⟨c, more, kind, text_eq, kept, front⟩ :=
    written.front rfl (Nat.sub_add_cancel written.escaped_le)
  generalize word.text.toList.count '\n' - escaped = counted at kept front
  rw [text_eq] at kept ⊢
  exact ⟨line + counted, scan_word (front line after apart) kept startsLine comments⟩

/-! ## One way to write a word -/

theorem WrittenAs.escaped_unique {word : Word} {lexeme other : List Char} {escaped further : Nat}
    (first : WrittenAs word lexeme escaped) (second : WrittenAs word other further) :
    escaped = further := by
  have first_le := first.unaccented.escaped_le
  have second_le := second.unaccented.escaped_le
  obtain ⟨c, more, kind, text_eq, -, front⟩ :=
    first.unaccented.front rfl (Nat.sub_add_cancel first_le)
  obtain ⟨d, tail, other_kind, other_eq, -, other_front⟩ :=
    second.unaccented.front rfl (Nat.sub_add_cancel second_le)
  obtain ⟨rfl, rfl⟩ := List.cons.inj (text_eq.symm.trans other_eq)
  have extents := (front 1 [] setOff_nil).symm.trans (other_front 1 [] setOff_nil)
  have counts := congrArg Extent.breaks (Except.ok.inj extents)
  dsimp only at counts
  omega

/-- Accents are told by the first character. -/
theorem WrittenAs.lexeme_eq {word : Word} {lexeme : List Char} {escaped : Nat}
    (written : WrittenAs word lexeme escaped) :
    lexeme = if lexeme.head? = some '\x60' then '\x60' :: word.text.toList ++ ['\x60']
      else word.text.toList := by
  cases written with
  | number shape =>
    rw [if_neg, String.toList_ofList]
    intro accent
    obtain ⟨more, rfl⟩ := List.head?_eq_some_iff.mp accent
    cases shape.digit
  | name identifier =>
    rw [Word.name, if_neg, String.toList_ofList]
    intro accent
    obtain ⟨more, rfl⟩ := List.head?_eq_some_iff.mp accent
    cases identifier
  | accented =>
    rw [Word.name, if_pos, String.toList_ofList]
    rfl
  | mark listed =>
    have heads : ∀ mark ∈ marks, mark.head? ≠ some '\x60' := by decide
    rw [Word.mark, if_neg (heads _ listed), String.toList_ofList]
  | @literal fence _ _ inner body =>
    rw [if_neg, String.toList_ofList]
    cases fence <;> simp [Fence.quotes]

theorem WrittenAs.lexeme_unique {word : Word} {lexeme other after rest : List Char}
    {escaped further : Nat} (first : WrittenAs word lexeme escaped)
    (second : WrittenAs word other further) (same : lexeme ++ after = other ++ rest) :
    lexeme = other := by
  have heads := congrArg List.head? same
  rw [List.head?_append_of_ne_nil _ first.nonempty, List.head?_append_of_ne_nil _ second.nonempty]
    at heads
  rw [first.lexeme_eq, second.lexeme_eq, heads]

end ApiHandbook.Source
