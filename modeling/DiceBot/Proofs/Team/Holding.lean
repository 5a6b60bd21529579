import DiceBot.Proofs.Team.Mirror
import DiceBot.Team.Repository

/-!
What a repository holds, whichever of the two it is.
-/

namespace DiceBot.Team.Repository

/-- A repository in which nothing was saved yet: an empty memory, or a database that was just
migrated, with the key of a passphrase. -/
inductive Fresh : Repository → Prop where
  | memory : Fresh (.memory [])
  | vault {v : Vault} (hd : v.database = Database.State.new.migrate.2)
      (hk : ∃ passphrase, v.key = .ofPassphrase passphrase)
      (hn : ∀ n, (v.nonces n).length = SealKey.nonceLength) : Fresh (.vault v)

/-- A time that a repository gives back as it was. A database keeps it as text. -/
def Writes : Repository → Time.Instant → Prop
  | .memory _, _ => True
  | .vault _, t => t.Dated

/-- The credentials that a repository holds. -/
inductive Holds : Repository → List Credentials → Prop where
  | memory (rows : List Credentials) : Holds (.memory rows) rows
  | vault {v : Vault} {rows : List Credentials} (h : v.Mirrors rows) : Holds (.vault v) rows

theorem Fresh.holds {r : Repository} (h : r.Fresh) : r.Holds [] := by
  cases h with
  | memory => exact .memory []
  | vault hd hk hn =>
    obtain ⟨passphrase, hk⟩ := hk
    exact .vault (Vault.mirrors_migrated hd (hk ▸ SealKey.ofPassphrase_fits passphrase) hn)

theorem Holds.find_eq {r : Repository} {rows : List Credentials} (h : r.Holds rows) (id : Id) :
    store.find id r = .ok (Memory.find id rows) := by
  cases h with
  | memory => rfl
  | vault h => exact h.find_eq id

theorem Holds.save {r : Repository} {rows : List Credentials} (h : r.Holds rows) {c : Credentials}
    (ha : r.Writes c.addedAt) (hu : r.Writes c.updatedAt) :
    (store.save c r).1 = .ok (Memory.save c rows).1 ∧
      (store.save c r).2.Holds (Memory.save c rows).2 := by
  cases h with
  | memory => exact ⟨rfl, .memory _⟩
  | vault h =>
    obtain ⟨hs, hm⟩ := h.save (c := c) ⟨ha, hu⟩
    exact ⟨hs, .vault hm⟩

theorem writes_save (r : Repository) (c : Credentials) (t : Time.Instant) :
    (store.save c r).2.Writes t ↔ r.Writes t := by
  cases r <;> rfl

end DiceBot.Team.Repository

namespace DiceBot.Team.Memory

/-- A save is found under its team, with the time of the first one; other teams stay. -/
theorem find_save (c : Credentials) (rows : List Credentials) (id : Id) :
    find id (save c rows).2 = if c.team = id
      then some { c with addedAt := ((find c.team rows).map Credentials.addedAt).getD c.addedAt }
      else find id rows := by
  unfold save
  cases hf : find c.team rows with
  | none =>
    have h := find?_upsert Credentials.team c rows id
    exact h
  | some earlier =>
    have h := find?_upsert Credentials.team { c with addedAt := earlier.addedAt } rows id
    exact h

end DiceBot.Team.Memory
