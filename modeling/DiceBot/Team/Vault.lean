import DiceBot.Database.Schema
import DiceBot.Team.Store
import DiceBot.Time.Stamp

/-!
The store in a database: rows of text, with both tokens sealed under one key.
-/

namespace DiceBot.Team

open Database (Cell Row)

/-- A database, the key that seals its tokens and the nonces to seal them with, of which some are
used up. -/
structure Vault where
  database : Database.State
  key : SealKey
  nonces : Nat → List UInt8
  used : Nat

namespace Vault

def textOf : Cell → Except StoreError String
  | .text value => .ok value
  | .bytes _ => .error (.decode "the column holds bytes")

def instantOf (column value : String) : Except StoreError Time.Instant :=
  match Time.Instant.ofStamp? value with
  | some t => .ok t
  | none => .error (.decode (column ++ ": the text is no timestamp"))

def tokenOf (key : SealKey) (stored : String) : Except StoreError String :=
  match key.reveal stored with
  | .ok token => .ok token
  | .error error => .error (.sealing error)

/-- The credentials of a row: first all its texts, then its times, then its tokens. -/
def credentialsOf (key : SealKey) (row : Row) : Except StoreError Credentials := do
  let id ← textOf row.id
  let token ← textOf row.token
  let botId ← textOf row.botId
  let botToken ← textOf row.botToken
  let addedAt ← textOf row.addedAt
  let updatedAt ← textOf row.updatedAt
  let addedAt ← instantOf "added_at" addedAt
  let updatedAt ← instantOf "updated_at" updatedAt
  let token ← tokenOf key token
  let botToken ← tokenOf key botToken
  return ⟨⟨id⟩, token, botId, botToken, addedAt, updatedAt⟩

def find (team : Id) (v : Vault) : Except StoreError (Option Credentials) :=
  match v.database.find team.text with
  | .error error => .error (.database error.detail)
  | .ok none => .ok none
  | .ok (some row) => (credentialsOf v.key row).map some

/-- The row of credentials, with their tokens sealed under two nonces. -/
def rowOf (key : SealKey) (nonce botNonce : List UInt8) (c : Credentials) : Row :=
  ⟨.text c.team.text, .text (key.sealWith nonce c.token), .text c.botId,
    .text (key.sealWith botNonce c.botToken), .text c.addedAt.stamp, .text c.updatedAt.stamp⟩

/-- A team keeps the time at which it was added. Two nonces are used up, whatever happens. -/
def save (c : Credentials) (v : Vault) : Except StoreError Saved × Vault :=
  let row := rowOf v.key (v.nonces v.used) (v.nonces (v.used + 1)) c
  let v := { v with used := v.used + 2 }
  match v.database.rows with
  | .error error => (.error (.database error.detail), v)
  | .ok rows =>
    let put (row : Row) : Vault :=
      { v with database := { v.database with teams := some (upsert Row.id row rows) } }
    match rows.find? (fun r => r.id = row.id) with
    | some earlier => (.ok .updated, put { row with addedAt := earlier.addedAt })
    | none => (.ok .inserted, put row)

def store : Store Vault := ⟨find, save⟩

end Vault
end DiceBot.Team
