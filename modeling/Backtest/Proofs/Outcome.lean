namespace Backtest.Proofs.Outcome

variable {ε β γ : Type}

@[simp] theorem bind_eq_ok {outcome : Except ε β} {next : β → Except ε γ} {result : γ} :
    outcome >>= next = .ok result ↔ ∃ value, outcome = .ok value ∧ next value = .ok result := by
  cases outcome with
  | error error =>
      constructor
      · intro h
        cases h
      · rintro ⟨value, hvalue, -⟩
        cases hvalue
  | ok value =>
      constructor
      · exact fun h => ⟨value, rfl, h⟩
      · rintro ⟨_, ⟨⟩, h⟩
        exact h

theorem bind_eq_error {outcome : Except ε β} {next : β → Except ε γ} {error : ε} :
    outcome >>= next = .error error ↔
      outcome = .error error ∨ ∃ value, outcome = .ok value ∧ next value = .error error := by
  cases outcome with
  | error cause =>
      constructor
      · exact fun h => .inl (congrArg _ (Except.error.inj h))
      · rintro (h | ⟨value, hvalue, -⟩)
        · exact congrArg _ (Except.error.inj h)
        · cases hvalue
  | ok value =>
      constructor
      · exact fun h => .inr ⟨value, rfl, h⟩
      · rintro (h | ⟨_, ⟨⟩, h⟩)
        · cases h
        · exact h

theorem map_eq_error {outcome : Except ε β} {f : β → γ} {error : ε} :
    f <$> outcome = .error error ↔ outcome = .error error := by
  cases outcome with
  | error cause =>
      exact ⟨fun h => congrArg _ (Except.error.inj h), fun h => congrArg _ (Except.error.inj h)⟩
  | ok value => exact ⟨nofun, nofun⟩

@[simp] theorem map_eq_ok {outcome : Except ε β} {f : β → γ} {result : γ} :
    f <$> outcome = .ok result ↔ ∃ value, outcome = .ok value ∧ f value = result := by
  rw [← bind_pure_comp, bind_eq_ok]
  exact exists_congr fun value => and_congr_right fun _ => ⟨Except.ok.inj, congrArg Except.ok⟩

theorem mapError_eq_ok {δ : Type} {outcome : Except ε β} {f : ε → δ} {value : β} :
    outcome.mapError f = .ok value ↔ outcome = .ok value := by
  cases outcome with
  | error error => exact ⟨nofun, nofun⟩
  | ok other => exact ⟨fun h => congrArg _ (Except.ok.inj h), fun h => congrArg _ (Except.ok.inj h)⟩

theorem mapError_eq_error {δ : Type} {outcome : Except ε β} {f : ε → δ} {error : δ} :
    outcome.mapError f = .error error ↔ ∃ cause, outcome = .error cause ∧ f cause = error := by
  cases outcome with
  | error cause =>
      constructor
      · exact fun h => ⟨cause, rfl, Except.error.inj h⟩
      · rintro ⟨_, ⟨⟩, rfl⟩
        rfl
  | ok value =>
      constructor
      · exact nofun
      · rintro ⟨_, ⟨⟩, -⟩

theorem mapError_bind {δ : Type} (f : ε → δ) (outcome : Except ε β) (next : β → Except ε γ) :
    (outcome >>= next).mapError f =
      outcome.mapError f >>= fun value => (next value).mapError f := by
  cases outcome <;> rfl

theorem toOption_eq_some {outcome : Except ε β} {value : β} :
    outcome.toOption = some value ↔ outcome = .ok value := by
  cases outcome with
  | error error => exact ⟨nofun, nofun⟩
  | ok other =>
      exact ⟨fun h => congrArg _ (Option.some.inj h), fun h => congrArg _ (Except.ok.inj h)⟩

end Backtest.Proofs.Outcome
