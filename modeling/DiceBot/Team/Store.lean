import DiceBot.Team.Credentials
import DiceBot.Team.Seal

/-!
Stores of credentials: what they are asked and how they may fail. A store in memory is a list of
credentials, one for each team.
-/

namespace DiceBot.Team

inductive StoreError where
  /-- The database does not answer. -/
  | database (detail : String)
  /-- A row does not hold what it has to. -/
  | decode (detail : String)
  | sealing (error : SealError)
  deriving DecidableEq, Repr

def StoreError.message : StoreError → String
  | .database detail => "database error: " ++ detail
  | .decode detail => "decode error: " ++ detail
  | .sealing error => "token sealing error: " ++ error.message

/-- Whether a save was the first of its team. -/
inductive Saved where
  | inserted
  | updated
  deriving DecidableEq, Repr

/-- A store with a state of type `τ`. Looking for a team leaves the state as it is. -/
structure Store (τ : Type) where
  find : Id → τ → Except StoreError (Option Credentials)
  save : Credentials → τ → Except StoreError Saved × τ

/-- Puts a row in the place of the one with the same key, or behind all others. -/
def upsert {α κ : Type} [DecidableEq κ] (key : α → κ) (row : α) : List α → List α
  | [] => [row]
  | r :: rows => if key r = key row then row :: rows else r :: upsert key row rows

theorem find?_upsert {α κ : Type} [DecidableEq κ] (key : α → κ) (row : α) (rows : List α) (k : κ) :
    (upsert key row rows).find? (fun r => key r = k) =
      if key row = k then some row else rows.find? (fun r => key r = k) := by
  induction rows with
  | nil => simp [upsert]
  | cons r rows ih =>
    unfold upsert
    split
    · by_cases hk : key row = k <;> simp_all
    · rw [List.find?_cons, List.find?_cons, ih]
      by_cases hr : key r = k <;> by_cases hk : key row = k <;> simp_all

namespace Memory

def find (team : Id) (rows : List Credentials) : Option Credentials :=
  rows.find? fun c => c.team = team

/-- A team keeps the time at which it was added. -/
def save (c : Credentials) (rows : List Credentials) : Saved × List Credentials :=
  match find c.team rows with
  | some earlier => (.updated, upsert Credentials.team { c with addedAt := earlier.addedAt } rows)
  | none => (.inserted, upsert Credentials.team c rows)

/-- The store in memory never fails. -/
def store : Store (List Credentials) where
  find team rows := .ok (find team rows)
  save c rows := (.ok (save c rows).1, (save c rows).2)

end Memory
end DiceBot.Team
