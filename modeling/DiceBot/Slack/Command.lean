import DiceBot.Json.Value
import DiceBot.Team.Id

/-!
Slash commands: what Slack sends when a user gives a command, and the command that the bot takes
from it.
-/

namespace DiceBot.Slack

open Json (Value)

/-- What Slack sends, as it sends it. -/
structure Payload where
  command : String
  text : String
  teamId : String
  channelId : String
  userId : String
  userName : String
  deriving DecidableEq, Repr

namespace Payload

def fieldNames : List String :=
  ["command", "text", "team_id", "channel_id", "user_id", "user_name"]

/-- The payload of a record of texts. A field that is not given is empty. -/
def ofJson? (v : Value) : Option Payload := do
  let texts ← (← v.fields? fieldNames 0).mapM (Json.withDefault "" Value.text?)
  match texts with
  | [command, text, teamId, channelId, userId, userName] =>
    return ⟨command, text, teamId, channelId, userId, userName⟩
  | _ => none

end Payload

/-- A command for the bot. -/
structure Command where
  command : String
  text : String
  team : Team.Id
  channelId : String
  userId : String
  userName : String
  requestId : String
  deriving DecidableEq, Repr

/-- The name that a roll shows: that of the user, or a mention of the user when it is blank. -/
def Command.displayName (c : Command) : String :=
  if Text.isAllBlank c.userName then "<@" ++ c.userId ++ ">" else c.userName

inductive CommandError where
  /-- A command that the bot is not to answer, as it was sent. -/
  | unsupported (command : String)
  | missingTeam
  deriving DecidableEq, Repr

def CommandError.message : CommandError → String
  | .unsupported command => "\"" ++ command ++ "\" is not an allowed command"
  | .missingTeam => "slash command payload is missing a valid team id"

/-- The command of a payload, without the blanks around command and text. -/
def Payload.command? (p : Payload) (allowed : List String) (requestId : String) :
    Except CommandError Command :=
  let command := Text.strip p.command
  if allowed.contains command then
    match Team.Id.parse p.teamId with
    | .ok team =>
      .ok ⟨command, Text.strip p.text, team, p.channelId, p.userId, p.userName, requestId⟩
    | .error _ => .error .missingTeam
  else .error (.unsupported p.command)

end DiceBot.Slack
