import DiceBot.Database.Schema
import DiceBot.Failure
import DiceBot.Roll.Reply
import DiceBot.Server.HomePage
import DiceBot.Slack.Command
import DiceBot.Slack.Delivery
import DiceBot.Team.Store
import DiceBot.Web.Form
import DiceBot.Web.Http

/-!
The bot as a server: its parts, the world that they act on, and its answers to slash commands.
-/

namespace DiceBot.Server

open Slack (Trace Payload)
open Web (Response)

/-- The settings of the bot, and Slack, a store and dice with states of their own. -/
structure Bot (σ τ δ : Type) where
  settings : Settings
  slack : Slack.Api σ
  store : Team.Store τ
  dice : Roll.Dice δ
  /-- What the store shows of its database, if it has one. -/
  database : Option (τ → Database.State)

/-- The states of Slack, the store and the dice. -/
structure World (σ τ δ : Type) where
  slack : σ
  teams : τ
  dice : δ

/-- A response, what happened on the way to it and the world after it. -/
abbrev Answer (σ τ δ : Type) := Response × Trace × World σ τ δ

variable {σ τ δ : Type}

/-- What a user is told when something that the bot depends on fails. -/
def unavailable (e : Team.StoreError) : String :=
  ((Failure.persistence e.message).fault Fault.unassigned).userMessage

def authError (s : Settings) : String :=
  s.nameFull ++ " is not authorized to post in this team: *<" ++ s.baseUrl ++
    "|Click here to authorize>*"

namespace Bot

/-- Answers a command of a team whose tokens hold. Only a roll goes to the channel. -/
def answerRoll (bot : Bot σ τ δ) (c : Slack.Command) (team : Team.Credentials)
    (w : World σ τ δ) : Answer σ τ δ :=
  let about : Roll.About := ⟨bot.settings.nameFull, botVersion, c.command⟩
  let (reply, dice) := Roll.reply c.text c.displayName about bot.dice w.dice
  let w := { w with dice := dice }
  match reply with
  | .help text | .version text => (.text 200 text, .empty, w)
  | .rejected text => (.text 200 text, .info "roll.invalid", w)
  | .rolled text =>
    let face : Slack.BotFace := ⟨bot.settings.botUsername, bot.settings.botIcon⟩
    let (delivered, trace, slack) := Slack.deliver bot.slack team c.channelId text face w.slack
    let w := { w with slack := slack }
    match delivered with
    | .ok () => (.empty 204, trace, w)
    | .error error =>
      (.text 200 (error.userMessage bot.settings.nameFull),
        trace ++ .warn "slack.command.delivery_failed", w)

/-- Answers a command: its team has to be in the store, with tokens that hold. -/
def answerCommand (bot : Bot σ τ δ) (c : Slack.Command) (w : World σ τ δ) : Answer σ τ δ :=
  match bot.store.find c.team w.teams with
  | .error error =>
    (.text 503 (unavailable error), .error "slack.command.team_lookup_failed", w)
  | .ok none => (.text 200 (authError bot.settings), .warn "slack.command.auth_error", w)
  | .ok (some team) =>
    let (valid, checks, slack) := Slack.credentialsValid bot.slack team w.slack
    let w := { w with slack := slack }
    if valid then
      let (response, trace, w) := bot.answerRoll c team w
      (response, checks ++ trace, w)
    else
      (.text 200 (authError bot.settings), checks ++ .warn "slack.command.auth_error", w)

def answerPayload (bot : Bot σ τ δ) (p : Payload) (requestId : String) (w : World σ τ δ) :
    Answer σ τ δ :=
  let received := Trace.info "slack.command.received"
  match p.command? bot.settings.allowedCommands requestId with
  | .error error => (.text 200 error.message, received ++ .warn "slack.command.not_allowed", w)
  | .ok c =>
    let (response, trace, w) := bot.answerCommand c w
    (response, received ++ trace, w)

end Bot

/-- The payload of a form, in which no field of it is given twice. -/
def payloadOfForm? (form : String) : Option Payload := do
  match ← Web.Form.fields? Payload.fieldNames (Web.Form.decodePairs form.toList) with
  | [command, text, teamId, channelId, userId, userName] =>
    return ⟨command.getD "", text.getD "", teamId.getD "", channelId.getD "", userId.getD "",
      userName.getD ""⟩
  | _ => none

end DiceBot.Server
