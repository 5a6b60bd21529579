import DiceBot.Database.Schema
import DiceBot.Json.Write
import DiceBot.Server.HomePage
import DiceBot.Time.Stamp
import DiceBot.Web.Http

/-!
The health of the bot: whether its database answers and its schema is current.
-/

namespace DiceBot.Server

open Json (Value)

structure Check where
  ready : Bool
  detail : String
  deriving DecidableEq, Repr

def statusWord (ready : Bool) : String := if ready then "ready" else "degraded"

def Check.toJson (c : Check) : Value :=
  .record [("status", .text (statusWord c.ready)), ("detail", .text c.detail)]

def databaseCheck (s : Database.State) : Check :=
  if s.closed then ⟨false, "database query failed: " ++ Database.QueryError.closed.detail⟩
  else ⟨true, "database query succeeded"⟩

def migrationCheck (s : Database.State) : Check :=
  match s.pending with
  | .ok 0 => ⟨true, "schema is current"⟩
  | .ok n => ⟨false, toString n ++ " migration(s) pending"⟩
  | .error error => ⟨false, "migration status unavailable: " ++ error.detail⟩

/-- The health of the bot is that of both checks. -/
def health (s : Database.State) (now : Time.Instant) : Web.Response :=
  let database := databaseCheck s
  let migrations := migrationCheck s
  let ready := database.ready && migrations.ready
  .json (if ready then 200 else 503) (Value.render (.record [
    ("status", .text (statusWord ready)), ("version", .text botVersion),
    ("database", database.toJson), ("migrations", migrations.toJson),
    ("checked_at", .text now.stamp)]))

end DiceBot.Server
