import DiceBot.Server.Health
import DiceBot.Server.Installation

/-!
The routes of the server: which request is answered by what, and the requests that are refused
before anything looks at them.
-/

namespace DiceBot.Server

open Slack (Trace)
open Web (Request Response)

variable {σ τ δ : Type}

inductive Route where
  | home
  | command
  | authenticate
  | validate
  | health
  deriving DecidableEq, Repr

def longestBody : Nat := 2 * 1024 * 1024

/-- The routes of a path, each with its method. A bot without a database has no health. -/
def routesOf (hasDatabase : Bool) (path : String) : List (String × Route) :=
  match path with
  | "/" => [("GET", .home), ("POST", .command)]
  | "/authenticate" => [("GET", .authenticate)]
  | "/validate" => [("GET", .validate)]
  | "/health" => if hasDatabase then [("GET", .health)] else []
  | _ => []

/-- The route of a request, or the status of its refusal. A `HEAD` goes where a `GET` goes. -/
def Route.find (hasDatabase : Bool) (method path : String) : Except Nat Route :=
  match routesOf hasDatabase path with
  | [] => .error 404
  | routes =>
    match routes.lookup (if method = "HEAD" then "GET" else method) with
    | some route => .ok route
    | none => .error 405

def formType : String := "application/x-www-form-urlencoded"

/-- The payload of a request, or the status of its refusal. -/
def payloadOf (r : Request) : Except Nat Slack.Payload :=
  if !r.contentType.any (Text.startsWith formType) then .error 415
  else if longestBody < (Bytes.utf8 r.body).length then .error 413
  else match payloadOfForm? r.body with
    | some payload => .ok payload
    | none => .error 422

def installedOf? (query : String) : Option Bool := do
  match ← Web.Form.fields? ["success"] (Web.Form.decodePairs query.toList) with
  | [success] => return success = some "1"
  | _ => none

namespace Bot

def answerRoute (bot : Bot σ τ δ) (now : Time.Instant) (r : Request) (w : World σ τ δ) :
    Route → Answer σ τ δ
  | .home =>
    match installedOf? r.query with
    | some installed => (.html 200 (homePage bot.settings installed), .empty, w)
    | none => (.text 400 "the query gives a field twice", .empty, w)
  | .command =>
    match payloadOf r with
    | .ok payload => bot.answerPayload payload Fault.unassigned w
    | .error status => (.empty status, .empty, w)
  | .authenticate =>
    let (response, trace) := beginInstallation bot.settings now
    (response, trace, w)
  | .validate =>
    match Callback.ofQuery? r.query with
    | some callback => bot.endInstallation callback now w
    | none => (.text 400 "the query gives a field twice", .empty, w)
  | .health =>
    match bot.database with
    | some database => (health (database w.teams) now, .empty, w)
    | none => (.empty 404, .empty, w)

def respond (bot : Bot σ τ δ) (now : Time.Instant) (r : Request) (w : World σ τ δ) :
    Answer σ τ δ :=
  match Route.find bot.database.isSome r.method r.path with
  | .error status => (.empty status, .empty, w)
  | .ok route =>
    let (response, trace, w) := bot.answerRoute now r w route
    (if r.method = "HEAD" then response.withoutBody else response, trace, w)

/-- The answers to requests that come one after another, each at its time. -/
def run (bot : Bot σ τ δ) :
    List (Time.Instant × Request) → World σ τ δ → List (Response × Trace) × World σ τ δ
  | [], w => ([], w)
  | (now, r) :: requests, w =>
    let (response, trace, w) := bot.respond now r w
    let (answers, w) := bot.run requests w
    ((response, trace) :: answers, w)

end Bot
end DiceBot.Server
