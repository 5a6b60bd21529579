import DiceBot.Slack.Api
import DiceBot.Team.Credentials

/-!
Dealing with Slack for a team: whether its tokens still hold, and the delivery of a roll to a
channel.
-/

namespace DiceBot.Slack

variable {σ : Type}

/-- Tries tokens one after another, up to the first that Slack does not take. -/
def tokensValid (api : Api σ) : (tokens : List String) → σ → Bool × Trace × σ
  | [], s => (true, .empty, s)
  | token :: tokens, s =>
    match api.authTest token s with
    | (.error _, s) => (false, .ofCall (.authTest token) ++ .warn "slack.auth_test.failed", s)
    | (.ok _, s) =>
      let (valid, trace, s) := tokensValid api tokens s
      (valid, .ofCall (.authTest token) ++ trace, s)

/-- The token of the user and that of the bot have to hold both. -/
def credentialsValid (api : Api σ) (team : Team.Credentials) : σ → Bool × Trace × σ :=
  tokensValid api [team.token, team.botToken]

/-- The name and the icon that the bot posts under. -/
structure BotFace where
  username : String
  icon : String
  deriving DecidableEq, Repr

inductive DeliveryError where
  /-- The bot is no member of the channel. -/
  | channelNotFound (channel : String)
  | failed (error : ApiError)
  deriving DecidableEq, Repr

namespace DeliveryError

def message : DeliveryError → String
  | .channelNotFound channel => "bot is not a member of channel `" ++ channel ++ "`"
  | .failed error => "message delivery failed: " ++ error.message

/-- What the user is told who gave the command. -/
def userMessage (appName : String) : DeliveryError → String
  | .channelNotFound _ =>
    "The " ++ appName ++ " bot is not authorized to post in this channel. " ++
    "Please invite it to join this channel and try again."
  | .failed error => appName ++ " encountered an error: " ++ error.code?.getD error.message

/-- The refusal of a channel that the bot has not joined has an error of its own. -/
def ofApiError (channel : String) (error : ApiError) : DeliveryError :=
  if error.code? = some "channel_not_found" then .channelNotFound channel else .failed error

end DeliveryError

/-- Posts a roll to a channel as the bot of a team. -/
def deliver (api : Api σ) (team : Team.Credentials) (channel text : String) (face : BotFace)
    (s : σ) : Except DeliveryError Unit × Trace × σ :=
  let message : Message := ⟨channel, text, face.username, face.icon⟩
  let (answer, s) := api.postMessage team.botToken message s
  let asked := Trace.ofCall (.postMessage team.botToken message)
  match answer with
  | .ok () => (.ok (), asked ++ .info "slack.roll.delivered", s)
  | .error error =>
    (.error (.ofApiError channel error), asked ++ .warn "slack.roll.delivery_failed", s)

end DiceBot.Slack
