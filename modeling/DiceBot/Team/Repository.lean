import DiceBot.Team.Vault

/-!
The stores that teams are kept in, as one: in memory or in a database.
-/

namespace DiceBot.Team

inductive Repository where
  | memory (rows : List Credentials)
  | vault (v : Vault)

namespace Repository

def store : Store Repository where
  find id
    | .memory rows => Memory.store.find id rows
    | .vault v => Vault.store.find id v
  save c
    | .memory rows =>
      let (saved, rows) := Memory.store.save c rows
      (saved, .memory rows)
    | .vault v =>
      let (saved, v) := Vault.store.save c v
      (saved, .vault v)

end Repository
end DiceBot.Team
