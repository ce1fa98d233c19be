namespace Offload

variable {ε α β γ : Type}

theorem bind_eq_ok_iff {x : Except ε α} {f : α → Except ε β} {b : β} :
    (x >>= f) = .ok b ↔ ∃ a, x = .ok a ∧ f a = .ok b := by
  constructor
  · intro h
    cases x with
    | error refusal => cases h
    | ok a => exact ⟨a, rfl, h⟩
  · rintro ⟨a, rfl, h⟩
    exact h

theorem map_eq_ok_iff {x : Except ε α} {f : α → β} {b : β} :
    x.map f = .ok b ↔ ∃ a, x = .ok a ∧ f a = b := by
  constructor
  · intro h
    cases x with
    | error refusal => cases h
    | ok a => exact ⟨a, rfl, Except.ok.inj h⟩
  · rintro ⟨a, rfl, rfl⟩
    rfl

/-- Two sequences of computations that agree, up to a function of the result, agree if one computation
comes before both. -/
theorem bind_eq_map_bind {x : Except ε α} {f : α → Except ε β} {g : α → Except ε γ} {h : β → γ}
    (hf : ∀ a, x = .ok a → g a = (f a).map h) : (x >>= g) = (x >>= f).map h := by
  cases x with
  | error refusal => rfl
  | ok a => exact hf a rfl

/-- Two computations in a row whose results are put together. -/
theorem both_eq_ok_iff {x : Except ε α} {y : Except ε β} {f : α → β → γ} {c : γ} :
    (do return f (← x) (← y)) = Except.ok c ↔ ∃ a b, x = .ok a ∧ y = .ok b ∧ f a b = c := by
  constructor
  · intro h
    obtain ⟨a, hx, h⟩ := bind_eq_ok_iff.mp h
    obtain ⟨b, hy, h⟩ := bind_eq_ok_iff.mp h
    exact ⟨a, b, hx, hy, Except.ok.inj h⟩
  · rintro ⟨a, b, rfl, rfl, rfl⟩
    rfl

/-- Why a computation has no result. -/
def refusal? : Except ε α → Option ε
  | .ok _ => none
  | .error refusal => some refusal

theorem refusal?_map (x : Except ε α) (f : α → β) : refusal? (x.map f) = refusal? x := by
  cases x <;> rfl

/-- A second computation that is refused for the same reason after every result of the first one. -/
theorem refusal?_bind {x : Except ε α} {f : α → Except ε β} {later : Option ε}
    (h : ∀ a, x = .ok a → refusal? (f a) = later) : refusal? (x >>= f) = (refusal? x).or later := by
  cases x with
  | error refusal => rfl
  | ok a => exact h a rfl

theorem refusal?_both (x : Except ε α) (y : Except ε β) (f : α → β → γ) :
    refusal? (do return f (← x) (← y)) = (refusal? x).or (refusal? y) := by
  cases x with
  | error refusal => rfl
  | ok a => cases y <;> rfl

end Offload
