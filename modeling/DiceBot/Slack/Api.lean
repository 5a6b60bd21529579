import DiceBot.Slack.Reply

/-!
Slack as the bot sees it: three operations whose answers may depend on a state of its own, the
record of what it was asked, and the events that the bot logs.
-/

namespace DiceBot.Slack

structure Message where
  channel : String
  text : String
  username : String
  icon : String
  deriving DecidableEq, Repr

structure ExchangeRequest where
  clientId : String
  clientSecret : String
  code : String
  redirectUri : String
  deriving DecidableEq, Repr

/-- Slack with a state of type `σ`. -/
structure Api (σ : Type) where
  authTest : (token : String) → σ → Except ApiError Identity × σ
  postMessage : (token : String) → Message → σ → Except ApiError Unit × σ
  oauthAccess : ExchangeRequest → σ → Except ApiError Grant × σ

inductive Call where
  | authTest (token : String)
  | postMessage (token : String) (message : Message)
  | oauthAccess (request : ExchangeRequest)
  deriving DecidableEq, Repr

inductive Level where
  | info
  | warn
  | error
  deriving DecidableEq, Repr

def Level.name : Level → String
  | .info => "INFO"
  | .warn => "WARN"
  | .error => "ERROR"

structure Event where
  level : Level
  name : String
  deriving DecidableEq, Repr

/-- What Slack was asked and what was logged, each in order. -/
structure Trace where
  calls : List Call
  events : List Event
  deriving DecidableEq, Repr

namespace Trace

def empty : Trace := ⟨[], []⟩

def ofCall (c : Call) : Trace := ⟨[c], []⟩

def info (name : String) : Trace := ⟨[], [⟨.info, name⟩]⟩

def warn (name : String) : Trace := ⟨[], [⟨.warn, name⟩]⟩

def error (name : String) : Trace := ⟨[], [⟨.error, name⟩]⟩

instance : Append Trace := ⟨fun a b => ⟨a.calls ++ b.calls, a.events ++ b.events⟩⟩

@[simp] theorem append_calls (a b : Trace) : (a ++ b).calls = a.calls ++ b.calls := rfl

@[simp] theorem append_events (a b : Trace) : (a ++ b).events = a.events ++ b.events := rfl

end Trace
end DiceBot.Slack
