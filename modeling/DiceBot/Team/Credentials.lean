import DiceBot.Team.Id
import DiceBot.Time.Instant

/-!
The credentials that a team has granted to the bot.
-/

namespace DiceBot.Team

structure Credentials where
  team : Id
  /-- The token of the user who installed the bot. -/
  token : String
  botId : String
  botToken : String
  addedAt : Time.Instant
  updatedAt : Time.Instant
  deriving DecidableEq, Repr

end DiceBot.Team
