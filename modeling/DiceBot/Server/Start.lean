import DiceBot.Database.Disk
import DiceBot.Server.Bot
import DiceBot.Settings.Validation
import DiceBot.Team.Vault

/-!
The start of the bot: its settings are checked, its database is opened and brought up to date.
-/

namespace DiceBot.Server

open Slack (Event)

inductive StartError where
  | settings (problem : Problem)
  | connect (error : Database.ConnectError)
  | migrate (error : Database.MigrationError)
  deriving DecidableEq, Repr

def vaultOf (s : Settings) (database : Database.State) (nonces : Nat → List UInt8) : Team.Vault :=
  ⟨database, .ofPassphrase s.sealPassphrase, nonces, 0⟩

/-- The vault that the bot starts with, and the events on the way to it. -/
def start (s : Settings) (disk : Database.Disk) (nonces : Nat → List UInt8) :
    Except StartError Team.Vault × List Event :=
  let started : Event := ⟨.info, "system.bootstrap.start"⟩
  match s.check with
  | .error problem => (.error (.settings problem), [started])
  | .ok () =>
    match disk.connect s.databaseUrl with
    | .error error => (.error (.connect error), [started])
    | .ok (location, database) =>
      let connected : Event := ⟨.info, "system.bootstrap.database_connected"⟩
      match location.change Database.State.migrate database with
      | (.error error, _) => (.error (.migrate error), [started, connected])
      | (.ok (), database) =>
        (.ok (vaultOf s database nonces),
          [started, connected, ⟨.info, "system.bootstrap.migrations_applied"⟩])

def botOf {σ δ : Type} (s : Settings) (slack : Slack.Api σ) (dice : Roll.Dice δ) :
    Bot σ Team.Vault δ :=
  ⟨s, slack, Team.Vault.store, dice, some Team.Vault.database⟩

end DiceBot.Server
