import DiceBot.Json.Read

/-!
Replies of Slack: what its methods answer, and how a call may fail. Every reply has an envelope that
says whether Slack did what it was asked; a refusal reads the same for every method.
-/

namespace DiceBot.Slack

open Json (Value)

/-- The methods of Slack that the bot calls. -/
inductive Method where
  | authTest
  | postMessage
  | oauthAccess
  deriving DecidableEq, Repr

def Method.name : Method → String
  | .authTest => "auth.test"
  | .postMessage => "chat.postMessage"
  | .oauthAccess => "oauth.access"

inductive ApiError where
  /-- Slack was not reached or did not answer. -/
  | transport (detail : String)
  /-- The answer has a status of HTTP that is no success. -/
  | status (code : Nat)
  /-- Slack refused, with a code. -/
  | refused (code : String)
  /-- The answer is no reply of the method. -/
  | malformed (detail : String)
  deriving DecidableEq, Repr

namespace ApiError

def message : ApiError → String
  | .transport detail => "slack request failed: " ++ detail
  | .status code => "slack returned HTTP " ++ toString code
  | .refused code => code
  | .malformed detail => "could not decode slack response: " ++ detail

def code? : ApiError → Option String
  | .refused code => some code
  | _ => none

end ApiError

/-- Whom a token speaks for. -/
structure Identity where
  teamId : String
  userId : String
  deriving DecidableEq, Repr

/-- The credentials that an installation grants. -/
structure Grant where
  accessToken : String
  teamId : String
  botUserId : String
  botAccessToken : String
  deriving DecidableEq, Repr

structure Envelope where
  ok : Bool
  error : Option String
  deriving DecidableEq, Repr

def Envelope.ofJson? (v : Value) : Option Envelope := do
  match ← v.fields? ["ok", "error"] 1 with
  | [ok, error] =>
    return ⟨← Json.needed Value.bool? ok,
      ← Json.withDefault none (Value.nullable? Value.text?) error⟩
  | _ => none

def unknownError : String := "unknown_error"

def Method.noReply (m : Method) : ApiError :=
  .malformed (m.name ++ ": the body is no reply of this method")

/-- Reads the body of a reply: its envelope, and what it holds if the envelope tells of a success. -/
def Method.read {α : Type} (m : Method) (content? : Value → Option α) (body : String) :
    Except ApiError α :=
  match Json.parse? body with
  | none => .error m.noReply
  | some v =>
    match Envelope.ofJson? v with
    | none => .error m.noReply
    | some ⟨false, error⟩ => .error (.refused (error.getD unknownError))
    | some ⟨true, _⟩ =>
      match content? v with
      | none => .error m.noReply
      | some a => .ok a

def Identity.ofJson? (v : Value) : Option Identity := do
  match ← v.fields? ["team_id", "user_id"] 0 with
  | [team, user] =>
    return ⟨← Json.withDefault "" Value.text? team, ← Json.withDefault "" Value.text? user⟩
  | _ => none

/-- The bot user of an installation and its token. -/
def botOfJson? (v : Value) : Option (String × String) := do
  match ← v.fields? ["bot_user_id", "bot_access_token"] 2 with
  | [user, token] => return (← Json.needed Value.text? user, ← Json.needed Value.text? token)
  | _ => none

/-- What an exchange of a code answers; the bot may be missing. -/
structure Exchange where
  accessToken : String
  teamId : String
  bot : Option (String × String)
  deriving DecidableEq, Repr

def Exchange.ofJson? (v : Value) : Option Exchange := do
  match ← v.fields? ["access_token", "team_id", "bot"] 0 with
  | [token, team, bot] =>
    return ⟨← Json.withDefault "" Value.text? token, ← Json.withDefault "" Value.text? team,
      ← Json.withDefault none (Value.nullable? botOfJson?) bot⟩
  | _ => none

/-- The grant of an exchange. It needs a bot, a token and a team. -/
def Exchange.grant (e : Exchange) : Except ApiError Grant :=
  match e.bot with
  | none => .error (.malformed "oauth.access response is missing bot credentials")
  | some (botUserId, botAccessToken) =>
    if e.accessToken = "" ∨ e.teamId = "" then
      .error (.malformed "oauth.access response is missing the access token or team id")
    else .ok ⟨e.accessToken, e.teamId, botUserId, botAccessToken⟩

/-- How deep a reply may be nested whose content is not looked at. -/
def deepestContent : Nat := 127

def readIdentity (body : String) : Except ApiError Identity :=
  Method.authTest.read Identity.ofJson? body

def readPosted (body : String) : Except ApiError Unit :=
  Method.postMessage.read (fun v => if v.isData deepestContent then some () else none) body

def readGrant (body : String) : Except ApiError Grant :=
  (Method.oauthAccess.read Exchange.ofJson? body).bind Exchange.grant

end DiceBot.Slack
