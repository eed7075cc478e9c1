/-! # Chains of steps that can fail -/
namespace ApiHandbook

theorem ok_of_bind {ε α β : Type} {first : Except ε α} {next : α → Except ε β} {value : β}
    (success : (first >>= next) = .ok value) : ∃ found, first = .ok found ∧ next found = .ok value := by
  cases first with
  | error error => cases success
  | ok found => exact ⟨found, rfl, success⟩

theorem ok_of_map {ε α β : Type} {result : Except ε α} {f : α → β} {value : β}
    (success : result.map f = .ok value) : ∃ found, result = .ok found ∧ f found = value := by
  cases result with
  | error error => cases success
  | ok found => exact ⟨found, rfl, Except.ok.inj success⟩

theorem ok_of_mapError {ε δ α : Type} {result : Except ε α} {f : ε → δ} {value : α}
    (success : result.mapError f = .ok value) : result = .ok value := by
  cases result with
  | error error => cases success
  | ok found => exact congrArg Except.ok (Except.ok.inj success)

theorem error_of_bind {ε α β : Type} {first : Except ε α} {next : α → Except ε β} {error : ε}
    (failed : (first >>= next) = .error error) :
    first = .error error ∨ ∃ found, first = .ok found ∧ next found = .error error := by
  cases first with
  | error found =>
    cases failed
    exact .inl rfl
  | ok found => exact .inr ⟨found, rfl, failed⟩

theorem ok_bind {ε α β : Type} {first : Except ε α} {next : α → Except ε β}
    (finishes : ∃ found, first = .ok found) (continues : ∀ found, ∃ value, next found = .ok value) :
    ∃ value, (first >>= next) = .ok value := by
  obtain ⟨found, rfl⟩ := finishes
  exact continues found

end ApiHandbook
