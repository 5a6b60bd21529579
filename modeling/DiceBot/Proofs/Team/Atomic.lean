import DiceBot.Team.Repository

/-!
Stores that keep what they hold when a save fails, as both stores do.
-/

namespace DiceBot.Team

/-- A save that fails leaves a store that holds the same. -/
structure Store.Atomic {τ : Type} (store : Store τ) (same : τ → τ → Prop) : Prop where
  refl : ∀ t, same t t
  failed : ∀ c t error, (store.save c t).1 = .error error → same t (store.save c t).2

/-- Repositories that hold the same: the same rows under the same key. Nonces may have been used. -/
inductive Repository.Same : Repository → Repository → Prop where
  | memory (rows : List Credentials) : Same (.memory rows) (.memory rows)
  | vault (v : Vault) (used : Nat) : Same (.vault v) (.vault { v with used := used })

theorem Vault.save_error {c : Credentials} {v : Vault} {error : StoreError}
    (h : (Vault.save c v).1 = .error error) : (Vault.save c v).2 = { v with used := v.used + 2 } := by
  unfold Vault.save at *
  cases hr : v.database.rows with
  | error e => simp only [hr]
  | ok rows =>
    simp only [hr] at h
    split at h <;> cases h

theorem Repository.store_atomic : Repository.store.Atomic Repository.Same where
  refl
    | .memory rows => .memory rows
    | .vault v => .vault v v.used
  failed c r error h := by
    cases r with
    | memory rows => cases h
    | vault v =>
      have hv : (Vault.save c v).2 = { v with used := v.used + 2 } := Vault.save_error h
      change Same (.vault v) (.vault (Vault.save c v).2)
      rw [hv]
      exact .vault v (v.used + 2)

/-- What a repository holds decides what is found in it. -/
theorem Repository.Same.find_eq {r r' : Repository} (h : Same r r') (id : Id) :
    Repository.store.find id r' = Repository.store.find id r := by
  cases h <;> rfl

end DiceBot.Team
