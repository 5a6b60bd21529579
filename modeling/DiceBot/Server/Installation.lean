import DiceBot.Install.StateToken
import DiceBot.Server.Bot
import DiceBot.Web.Url

/-!
The installation of the bot in a team: the caller is sent to Slack with a state token, comes back
with a code, and the code is exchanged for the credentials of the team.
-/

namespace DiceBot.Server

open Slack (Trace)
open Web (Response)

variable {σ τ δ : Type}

def signer (s : Settings) : Install.Signer := .new s.clientId s.clientSecret s.stateMaxAge

def installPairs (s : Settings) (now : Time.Instant) : List (String × String) :=
  [("client_id", s.clientId), ("redirect_uri", s.validUrl), ("scope", " ".intercalate s.scopes),
    ("state", (signer s).issue now)]

def beginInstallation (s : Settings) (now : Time.Instant) : Response × Trace :=
  match Web.Url.parse? s.oauthUrl with
  | some url => (.seeOther (url.withPairs (installPairs s now)).write, .empty)
  | none => (.failure 500 "OAuth is misconfigured.", .error "oauth.redirect.invalid_url")

structure Callback where
  state : Option String
  code : Option String
  /-- The code of a refusal. -/
  error : Option String
  deriving DecidableEq, Repr

/-- The callback of a query, in which no field of it is given twice. -/
def Callback.ofQuery? (query : String) : Option Callback := do
  match ← Web.Form.fields? ["state", "code", "error"] (Web.Form.decodePairs query.toList) with
  | [state, code, error] => return ⟨state, code, error⟩
  | _ => none

/-- An argument counts if it is not empty. -/
def given (argument : Option String) : Option String := argument.filter (· ≠ "")

def stateRefused : Install.StateError → Response × Trace
  | .expired _ => (.failure 400 message, .warn "oauth.state.expired")
  | .malformed | .forged => (.failure 401 message, .warn "oauth.state.not_authorized")
where message : String := "The authorization request is invalid or has expired."

def exchangeFailed (e : Slack.ApiError) : Response :=
  match e with
  | .transport _ | .status _ =>
    .failure 503 ((Failure.integration e.message).fault Fault.unassigned).userMessage
  | .refused _ | .malformed _ => .failure 400 "Slack did not accept the authorization code."

def exchangeRequest (s : Settings) (code : String) : Slack.ExchangeRequest :=
  ⟨s.clientId, s.clientSecret, code, s.validUrl⟩

def installedUrl (s : Settings) : String := s.root ++ "?success=1"

namespace Bot

def keepGrant (bot : Bot σ τ δ) (grant : Slack.Grant) (now : Time.Instant) (w : World σ τ δ) :
    Answer σ τ δ :=
  match Team.Id.parse grant.teamId with
  | .error error =>
    (.failure 400 ((Failure.team error).fault Fault.unassigned).userMessage,
      .warn "oauth.exchange.invalid_team", w)
  | .ok team =>
    let credentials : Team.Credentials :=
      ⟨team, grant.accessToken, grant.botUserId, grant.botAccessToken, now, now⟩
    let (saved, teams) := bot.store.save credentials w.teams
    let w := { w with teams := teams }
    match saved with
    | .error error => (.failure 503 (unavailable error), .error "oauth.team.save_failed", w)
    | .ok .inserted => (.seeOther (installedUrl bot.settings), .info "oauth.team.added", w)
    | .ok .updated => (.seeOther (installedUrl bot.settings), .info "oauth.team.updated", w)

def endInstallation (bot : Bot σ τ δ) (callback : Callback) (now : Time.Instant)
    (w : World σ τ δ) : Answer σ τ δ :=
  match given callback.state, given callback.code with
  | some state, some code =>
    match (signer bot.settings).verify state now with
    | .error error =>
      let (response, trace) := stateRefused error
      (response, trace, w)
    | .ok _ =>
      let request := exchangeRequest bot.settings code
      let asked := Trace.ofCall (.oauthAccess request)
      let (answer, slack) := bot.slack.oauthAccess request w.slack
      let w := { w with slack := slack }
      match answer with
      | .error error => (exchangeFailed error, asked ++ .warn "oauth.exchange.failed", w)
      | .ok grant =>
        let (response, trace, w) := bot.keepGrant grant now w
        (response, asked ++ trace, w)
  | _, _ => (.failure 400 "Missing state or code.", .warn "oauth.callback.missing_args", w)

end Bot
end DiceBot.Server
