/-!
Stages of a computation, the first failure ending it. Two computations end alike when both fail with
the same error or both succeed with results that are related.
-/

namespace DiceBot

/-- A stage after another one gives a result when both do. -/
theorem bind_eq_ok_iff {ε α β : Type} {x : Except ε α} {next : α → Except ε β} {b : β} :
    x >>= next = .ok b ↔ ∃ a, x = .ok a ∧ next a = .ok b := by
  cases x <;> simp [bind, Except.bind]

/-- A stage after another one fails when the first one does, and else when it does itself. -/
theorem bind_eq_error_iff {ε α β : Type} {x : Except ε α} {next : α → Except ε β} {e : ε} :
    x >>= next = .error e ↔ x = .error e ∨ ∃ a, x = .ok a ∧ next a = .error e := by
  cases x <;> simp [bind, Except.bind]

/-- Two outcomes that fail with the same error or succeed with results in a relation. -/
inductive SameOutcome {ε α β : Type} (same : α → β → Prop) : Except ε α → Except ε β → Prop where
  | error (error : ε) : SameOutcome same (.error error) (.error error)
  | ok {a : α} {b : β} (h : same a b) : SameOutcome same (.ok a) (.ok b)

theorem SameOutcome.bind {ε α β γ κ : Type} {same : α → β → Prop} {same' : γ → κ → Prop}
    {a : Except ε α} {b : Except ε β} {f : α → Except ε γ} {g : β → Except ε κ}
    (h : SameOutcome same a b) (hf : ∀ x y, same x y → SameOutcome same' (f x) (g y)) :
    SameOutcome same' (a >>= f) (b >>= g) := by
  cases h with
  | error error => exact .error error
  | ok h => exact hf _ _ h

theorem SameOutcome.map {ε α β γ κ : Type} {same : α → β → Prop} {same' : γ → κ → Prop}
    {a : Except ε α} {b : Except ε β} {f : α → γ} {g : β → κ} (h : SameOutcome same a b)
    (hf : ∀ x y, same x y → same' (f x) (g y)) : SameOutcome same' (a.map f) (b.map g) := by
  cases h with
  | error error => exact .error error
  | ok h => exact .ok (hf _ _ h)

theorem SameOutcome.refl {ε α : Type} (a : Except ε α) : SameOutcome Eq a a := by
  cases a with
  | error error => exact .error error
  | ok a => exact .ok rfl

end DiceBot
