import ApiHandbook.Proofs.Except
import ApiHandbook.Text.Utf8

/-!
# Encoded texts

Decoding accepts exactly the bytes that encode a text, and gives this text.
-/
namespace ApiHandbook.Text

/-! ## The bytes of a character -/

theorem isContinuation_iff {b : UInt8} :
    isContinuation b = true ↔ 0x80 ≤ b.toNat ∧ b.toNat < 0xC0 := by
  simp [isContinuation, UInt8.lt_iff_toNat_lt, UInt8.le_iff_toNat_le]

theorem continues_iff {lead b : UInt8} :
    continues lead b = true ↔ 0x80 ≤ b.toNat ∧ b.toNat < 0xC0 ∧
      (lead.toNat = 0xE0 → 0xA0 ≤ b.toNat) ∧ (lead.toNat = 0xED → b.toNat < 0xA0) ∧
      (lead.toNat = 0xF0 → 0x90 ≤ b.toNat) ∧ (lead.toNat = 0xF4 → b.toNat < 0x90) := by
  simp only [continues, Bool.and_eq_true, isContinuation_iff, Bool.not_eq_true',
    Bool.and_eq_false_imp, beq_iff_eq, decide_eq_false_iff_not, UInt8.lt_iff_toNat_lt,
    UInt8.le_iff_toNat_le, ← UInt8.toNat_inj, Nat.not_lt, Nat.not_le, UInt8.reduceToNat, and_assoc]

/-- The code that a payload and the bytes behind it spell. -/
def spelledCode (payload : Nat) (tail : List UInt8) : Nat :=
  tail.foldl (fun n b => n * 64 + (b.toNat - 0x80)) payload

@[simp] theorem spelledCode_nil (payload : Nat) : spelledCode payload [] = payload := rfl

@[simp] theorem spelledCode_cons (payload : Nat) (b : UInt8) (tail : List UInt8) :
    spelledCode payload (b :: tail) = spelledCode (payload * 64 + (b.toNat - 0x80)) tail := by
  simp only [spelledCode, List.foldl_cons]

theorem assemble_eq {c : Char} {payload : Nat} {tail : List UInt8}
    (spelled : spelledCode payload tail = c.toNat) : assemble payload tail = c := by
  rw [assemble, ← spelledCode, spelled, Char.ofNat_toNat]

theorem toNat_assemble {payload : Nat} {tail : List UInt8}
    (valid : (spelledCode payload tail).isValidChar) :
    (assemble payload tail).toNat = spelledCode payload tail := by
  rw [assemble, ← spelledCode, Char.ofNat, dif_pos valid]
  rfl

/-- The bytes of a character by its code. -/
theorem encoding_cases (c : Char) :
    c.toNat < 0x80 ∧ String.utf8EncodeChar c = [.ofNat c.toNat] ∨
    (0x80 ≤ c.toNat ∧ c.toNat < 0x800) ∧ String.utf8EncodeChar c =
      [.ofNat (c.toNat / 64 % 32 + 0xC0), .ofNat (c.toNat % 64 + 0x80)] ∨
    (0x800 ≤ c.toNat ∧ c.toNat < 0x10000) ∧ String.utf8EncodeChar c =
      [.ofNat (c.toNat / 4096 % 16 + 0xE0), .ofNat (c.toNat / 64 % 64 + 0x80),
        .ofNat (c.toNat % 64 + 0x80)] ∨
    (0x10000 ≤ c.toNat ∧ c.toNat < 0x110000) ∧ String.utf8EncodeChar c =
      [.ofNat (c.toNat / 262144 % 8 + 0xF0), .ofNat (c.toNat / 4096 % 64 + 0x80),
        .ofNat (c.toNat / 64 % 64 + 0x80), .ofNat (c.toNat % 64 + 0x80)] := by
  have value : c.val.toNat = c.toNat := rfl
  have valid : c.toNat < 0xD800 ∨ 0xDFFF < c.toNat ∧ c.toNat < 0x110000 := c.valid
  rw [String.utf8EncodeChar, value]
  split
  · exact .inl ⟨by omega, rfl⟩
  split
  · exact .inr (.inl ⟨by omega, rfl⟩)
  split
  · exact .inr (.inr (.inl ⟨by omega, rfl⟩))
  · exact .inr (.inr (.inr ⟨by omega, rfl⟩))

section
variable {c : Char} {b x y z : UInt8}

theorem encodes_one_iff :
    String.utf8EncodeChar c = [b] ↔ b.toNat < 0x80 ∧ assemble b.toNat [] = c := by
  constructor
  · intro encoded
    rcases encoding_cases c with ⟨range, bytes⟩ | ⟨_, bytes⟩ | ⟨_, bytes⟩ | ⟨_, bytes⟩ <;>
      rw [bytes] at encoded <;> cases encoded
    refine ⟨?_, assemble_eq ?_⟩ <;> simp only [spelledCode_nil, UInt8.toNat_ofNat'] <;> omega
  · rintro ⟨bound, rfl⟩
    have code := @toNat_assemble b.toNat [] (.inl (by simp only [spelledCode_nil]; omega))
    rw [spelledCode_nil] at code
    rcases encoding_cases (assemble b.toNat []) with ⟨_, bytes⟩ | range | range | range
    · rw [bytes, code, UInt8.ofNat_toNat]
    all_goals omega

theorem encodes_two_iff :
    String.utf8EncodeChar c = [b, x] ↔
      (0xC2 ≤ b.toNat ∧ b.toNat < 0xE0 ∧ continues b x = true) ∧
        assemble (b.toNat - 0xC0) [x] = c := by
  rw [continues_iff]
  constructor
  · intro encoded
    rcases encoding_cases c with ⟨_, bytes⟩ | ⟨range, bytes⟩ | ⟨_, bytes⟩ | ⟨_, bytes⟩ <;>
      rw [bytes] at encoded <;> cases encoded
    refine ⟨⟨?_, ?_, ?_, ?_, ?_, ?_, ?_, ?_⟩, assemble_eq ?_⟩ <;>
      simp only [spelledCode_cons, spelledCode_nil, UInt8.toNat_ofNat'] <;> omega
  · rintro ⟨bounds, rfl⟩
    have code := @toNat_assemble (b.toNat - 0xC0) [x]
      (.inl (by simp only [spelledCode_cons, spelledCode_nil]; omega))
    simp only [spelledCode_cons, spelledCode_nil] at code
    rcases encoding_cases (assemble (b.toNat - 0xC0) [x]) with range | ⟨_, bytes⟩ | range | range
    · omega
    · rw [bytes, code]
      simp only [List.cons.injEq, and_true, ← UInt8.toNat_inj, UInt8.toNat_ofNat']
      constructor <;> omega
    all_goals omega

theorem encodes_three_iff :
    String.utf8EncodeChar c = [b, x, y] ↔
      (0xE0 ≤ b.toNat ∧ b.toNat < 0xF0 ∧ continues b x = true ∧ isContinuation y = true) ∧
        assemble (b.toNat - 0xE0) [x, y] = c := by
  rw [continues_iff, isContinuation_iff]
  constructor
  · intro encoded
    have valid : c.toNat < 0xD800 ∨ 0xDFFF < c.toNat ∧ c.toNat < 0x110000 := c.valid
    rcases encoding_cases c with ⟨_, bytes⟩ | ⟨_, bytes⟩ | ⟨range, bytes⟩ | ⟨_, bytes⟩ <;>
      rw [bytes] at encoded <;> cases encoded
    refine ⟨⟨?_, ?_, ⟨?_, ?_, ?_, ?_, ?_, ?_⟩, ?_, ?_⟩, assemble_eq ?_⟩ <;>
      simp only [spelledCode_cons, spelledCode_nil, UInt8.toNat_ofNat'] <;> omega
  · rintro ⟨bounds, rfl⟩
    have code := @toNat_assemble (b.toNat - 0xE0) [x, y]
      (by simp only [spelledCode_cons, spelledCode_nil, Nat.isValidChar]; omega)
    simp only [spelledCode_cons, spelledCode_nil] at code
    rcases encoding_cases (assemble (b.toNat - 0xE0) [x, y]) with
      range | range | ⟨_, bytes⟩ | range
    · omega
    · omega
    · rw [bytes, code]
      simp only [List.cons.injEq, and_true, ← UInt8.toNat_inj, UInt8.toNat_ofNat']
      refine ⟨?_, ?_, ?_⟩ <;> omega
    · omega

theorem encodes_four_iff :
    String.utf8EncodeChar c = [b, x, y, z] ↔
      (0xF0 ≤ b.toNat ∧ b.toNat < 0xF5 ∧ continues b x = true ∧ isContinuation y = true ∧
          isContinuation z = true) ∧
        assemble (b.toNat - 0xF0) [x, y, z] = c := by
  rw [continues_iff, isContinuation_iff, isContinuation_iff]
  constructor
  · intro encoded
    rcases encoding_cases c with ⟨_, bytes⟩ | ⟨_, bytes⟩ | ⟨_, bytes⟩ | ⟨range, bytes⟩ <;>
      rw [bytes] at encoded <;> cases encoded
    refine ⟨⟨?_, ?_, ⟨?_, ?_, ?_, ?_, ?_, ?_⟩, ⟨?_, ?_⟩, ?_, ?_⟩, assemble_eq ?_⟩ <;>
      simp only [spelledCode_cons, spelledCode_nil, UInt8.toNat_ofNat'] <;> omega
  · rintro ⟨bounds, rfl⟩
    have code := @toNat_assemble (b.toNat - 0xF0) [x, y, z]
      (.inr (by simp only [spelledCode_cons, spelledCode_nil]; omega))
    simp only [spelledCode_cons, spelledCode_nil] at code
    rcases encoding_cases (assemble (b.toNat - 0xF0) [x, y, z]) with
      range | range | range | ⟨_, bytes⟩
    · omega
    · omega
    · omega
    · rw [bytes, code]
      simp only [List.cons.injEq, and_true, ← UInt8.toNat_inj, UInt8.toNat_ofNat']
      refine ⟨?_, ?_, ?_, ?_⟩ <;> omega

end

/-! ## Whole texts -/

section
variable {b x y z : UInt8} {rest : List UInt8} {pos : Nat}

theorem decodeUtf8From_one (lead : b.toNat < 0x80) :
    decodeUtf8From pos (b :: rest) =
      (do return assemble b.toNat [] :: (← decodeUtf8From (pos + 1) rest)) := by
  rw [decodeUtf8From.eq_def]
  simp only [UInt8.lt_iff_toNat_lt, UInt8.reduceToNat]
  rw [if_pos lead]
  rfl

theorem decodeUtf8From_two
    (spelled : 0xC2 ≤ b.toNat ∧ b.toNat < 0xE0 ∧ continues b x = true) :
    decodeUtf8From pos (b :: x :: rest) =
      (do return assemble (b.toNat - 0xC0) [x] :: (← decodeUtf8From (pos + 2) rest)) := by
  obtain ⟨least, lead, second⟩ := spelled
  rw [decodeUtf8From.eq_def]
  simp only [UInt8.lt_iff_toNat_lt, UInt8.reduceToNat, second]
  rw [if_neg (by omega), if_neg (by omega), if_pos lead]
  rfl

theorem decodeUtf8From_three (spelled : 0xE0 ≤ b.toNat ∧ b.toNat < 0xF0 ∧ continues b x = true ∧
      isContinuation y = true) :
    decodeUtf8From pos (b :: x :: y :: rest) =
      (do return assemble (b.toNat - 0xE0) [x, y] :: (← decodeUtf8From (pos + 3) rest)) := by
  obtain ⟨least, lead, second, third⟩ := spelled
  rw [decodeUtf8From.eq_def]
  simp only [UInt8.lt_iff_toNat_lt, UInt8.reduceToNat, second, third]
  rw [if_neg (by omega), if_neg (by omega), if_neg (by omega), if_pos lead]
  rfl

theorem decodeUtf8From_four (spelled : 0xF0 ≤ b.toNat ∧ b.toNat < 0xF5 ∧ continues b x = true ∧
      isContinuation y = true ∧ isContinuation z = true) :
    decodeUtf8From pos (b :: x :: y :: z :: rest) =
      (do return assemble (b.toNat - 0xF0) [x, y, z] :: (← decodeUtf8From (pos + 4) rest)) := by
  obtain ⟨least, lead, second, third, fourth⟩ := spelled
  rw [decodeUtf8From.eq_def]
  simp only [UInt8.lt_iff_toNat_lt, UInt8.reduceToNat, second, third, fourth]
  rw [if_neg (by omega), if_neg (by omega), if_neg (by omega), if_neg (by omega), if_pos lead]
  rfl

end

/-- One character is decoded in front of any bytes. -/
theorem decodeUtf8From_encoded (pos : Nat) (c : Char) (rest : List UInt8) :
    ∃ next, decodeUtf8From pos (String.utf8EncodeChar c ++ rest) =
      (do return c :: (← decodeUtf8From next rest)) := by
  rcases encoding_cases c with ⟨_, bytes⟩ | ⟨_, bytes⟩ | ⟨_, bytes⟩ | ⟨_, bytes⟩
  · obtain ⟨lead, assembled⟩ := encodes_one_iff.mp bytes
    have decoded := @decodeUtf8From_one _ rest pos lead
    rw [assembled] at decoded
    rw [bytes]
    exact ⟨_, decoded⟩
  · obtain ⟨spelled, assembled⟩ := encodes_two_iff.mp bytes
    have decoded := @decodeUtf8From_two _ _ rest pos spelled
    rw [assembled] at decoded
    rw [bytes]
    exact ⟨_, decoded⟩
  · obtain ⟨spelled, assembled⟩ := encodes_three_iff.mp bytes
    have decoded := @decodeUtf8From_three _ _ _ rest pos spelled
    rw [assembled] at decoded
    rw [bytes]
    exact ⟨_, decoded⟩
  · obtain ⟨spelled, assembled⟩ := encodes_four_iff.mp bytes
    have decoded := @decodeUtf8From_four _ _ _ _ rest pos spelled
    rw [assembled] at decoded
    rw [bytes]
    exact ⟨_, decoded⟩

/-- Decoding takes the bytes of a character off the front. -/
theorem decodeUtf8From_cases {pos : Nat} {bytes : List UInt8} {text : List Char}
    (success : decodeUtf8From pos bytes = .ok text) :
    (bytes = [] ∧ text = []) ∨ ∃ c rest next others, bytes = String.utf8EncodeChar c ++ rest ∧
      text = c :: others ∧ decodeUtf8From next rest = .ok others := by
  have taken : ∀ (c : Char) (front rest : List UInt8) (next : Nat),
      String.utf8EncodeChar c = front → bytes = front ++ rest →
      (do return c :: (← decodeUtf8From next rest)) = .ok text →
      ∃ c rest next others, bytes = String.utf8EncodeChar c ++ rest ∧ text = c :: others ∧
        decodeUtf8From next rest = .ok others := by
    rintro c front rest next rfl bytes_eq success
    obtain ⟨others, further, made⟩ := ok_of_bind success
    cases made
    exact ⟨c, rest, next, others, bytes_eq, rfl, further⟩
  cases bytes with
  | nil =>
    cases success
    exact .inl ⟨rfl, rfl⟩
  | cons b rest =>
    right
    rw [decodeUtf8From.eq_def] at success
    simp only [UInt8.lt_iff_toNat_lt, UInt8.reduceToNat] at success
    split at success
    · rename_i lead
      exact taken _ _ _ _ (encodes_one_iff.mpr ⟨lead, rfl⟩) rfl success
    split at success
    · cases success
    split at success
    · rename_i lead
      split at success
      · cases success
      rename_i x rest
      split at success
      · cases success
      rename_i second
      rw [Bool.not_eq_true, Bool.not_eq_false'] at second
      exact taken _ _ _ _ (encodes_two_iff.mpr ⟨⟨by omega, lead, second⟩, rfl⟩) rfl success
    split at success
    · rename_i lead
      split at success
      · cases success
      · split at success <;> cases success
      rename_i x y rest
      split at success
      · cases success
      rename_i second
      split at success
      · cases success
      rename_i third
      rw [Bool.not_eq_true, Bool.not_eq_false'] at second third
      exact taken _ _ _ _ (encodes_three_iff.mpr ⟨⟨by omega, lead, second, third⟩, rfl⟩) rfl success
    split at success
    · rename_i lead
      split at success
      · cases success
      · split at success <;> cases success
      · split at success
        · cases success
        · split at success <;> cases success
      rename_i x y z rest
      split at success
      · cases success
      rename_i second
      split at success
      · cases success
      rename_i third
      split at success
      · cases success
      rename_i fourth
      rw [Bool.not_eq_true, Bool.not_eq_false'] at second third fourth
      exact taken _ _ _ _
        (encodes_four_iff.mpr ⟨⟨by omega, lead, second, third, fourth⟩, rfl⟩) rfl success
    · cases success

/-- Bytes are decoded exactly if they encode a text, and to this text. -/
theorem decodeUtf8_eq_ok_iff (bytes : List UInt8) (text : List Char) :
    decodeUtf8 bytes = .ok text ↔ bytes = text.flatMap String.utf8EncodeChar := by
  rw [decodeUtf8]
  generalize 0 = pos
  constructor
  · intro success
    induction text generalizing pos bytes with
    | nil =>
      obtain ⟨rfl, -⟩ | ⟨_, _, _, _, _, text_eq, _⟩ := decodeUtf8From_cases success
      · rfl
      · cases text_eq
    | cons c text ih =>
      obtain ⟨-, text_eq⟩ | ⟨_, rest, next, _, rfl, text_eq, further⟩ :=
        decodeUtf8From_cases success
      · cases text_eq
      · cases text_eq
        rw [ih rest next further, List.flatMap_cons]
  · rintro rfl
    induction text generalizing pos with
    | nil => rfl
    | cons c text ih =>
      obtain ⟨next, decoded⟩ := decodeUtf8From_encoded pos c (text.flatMap String.utf8EncodeChar)
      rw [List.flatMap_cons, decoded, ih next]
      rfl

end ApiHandbook.Text
