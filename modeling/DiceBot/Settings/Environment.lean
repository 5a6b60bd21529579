import DiceBot.Settings.Error
import DiceBot.Settings.Layer
import DiceBot.Text.Blank
import DiceBot.Text.Numeral
import DiceBot.Word

/-!
Environment variables, and the settings they give.
-/

namespace DiceBot

/-- The variables of a process. A variable that is set may hold bytes that are no text. -/
structure Environment where
  value? : (name : String) → Option (Option String)

namespace Environment

def ofList (bindings : List (String × Option String)) : Environment where
  value? name := bindings.lookup name

def isSet (env : Environment) (name : String) : Bool := (env.value? name).isSome

/-- The value of a variable that holds text. -/
def text? (env : Environment) (name : String) : Option String := (env.value? name).join

/-- The value of a variable that holds text and not only blanks. -/
def given? (env : Environment) (name : String) : Option String :=
  (env.text? name).filter fun value => !Text.isAllBlank value

def number? (env : Environment) (name : String) (bound : Nat) :
    Except SettingsError (Option Nat) :=
  match env.given? name with
  | none => .ok none
  | some value =>
    match Text.readNatBelow? bound value with
    | some n => .ok (some n)
    | none => .error (.badVariable name value)

end Environment

/-- The parts of a list between commas, without blanks around them; a blank part is left out. -/
def readList (value : String) : List String :=
  ((List.splitOn ',' value.toList).map Text.trim).filterMap fun entry =>
    if entry = [] then none else some (String.ofList entry)

/-- A log format in either case and with blanks around it. -/
def LogFormat.read (value : String) : Except SettingsError LogFormat :=
  let name := Text.lower (Text.strip value)
  match LogFormat.ofName? name with
  | some format => .ok format
  | none => .error (.invalid (.logFormat name))

namespace Environment

def logFormat? (env : Environment) : Except SettingsError (Option LogFormat) :=
  match env.given? "ROLLBOT_LOGGING_FORMAT" <|> env.given? "ROLLBOT_LOG_FORMAT" with
  | none => .ok none
  | some value => (LogFormat.read value).map some

/-- The settings that the variables give. A variable with nothing but blanks gives none. -/
def layer (env : Environment) : Except SettingsError Layer := do
  let maxConnections ← env.number? "ROLLBOT_DATABASE_MAX_CONNECTIONS" Word.count32
  let databaseTimeout ← env.number? "ROLLBOT_DATABASE_TIMEOUT_SECS" Word.count64
  let stateMaxAge ← env.number? "ROLLBOT_SLACK_STATE_MAX_AGE_SECS" Word.count64
  let port ← env.number? "ROLLBOT_SERVER_PORT" Word.count16
  let shutdownTimeout ← env.number? "ROLLBOT_SERVER_GRACEFUL_SHUTDOWN_SECS" Word.count64
  let logFormat ← env.logFormat?
  return { Layer.empty with
    nameFull := env.given? "ROLLBOT_APP_NAME_FULL"
    baseUrl := env.given? "ROLLBOT_APP_BASE_URL"
    allowedCommands := (env.given? "ROLLBOT_APP_ALLOWED_COMMANDS").map readList
    databaseUrl := env.given? "ROLLBOT_DATABASE_URL"
    maxConnections, databaseTimeout
    tokenKey := env.given? "ROLLBOT_DATABASE_TOKEN_KEY"
    clientId := env.given? "ROLLBOT_SLACK_CLIENT_ID"
    clientSecret := env.given? "ROLLBOT_SLACK_CLIENT_SECRET"
    oauthUrl := env.given? "ROLLBOT_SLACK_OAUTH_URL"
    apiBaseUrl := env.given? "ROLLBOT_SLACK_API_BASE_URL"
    stateMaxAge
    bindAddress := env.given? "ROLLBOT_SERVER_BIND_ADDRESS"
    port, shutdownTimeout
    logLevel := env.given? "ROLLBOT_LOGGING_LEVEL" <|> env.given? "ROLLBOT_LOG_LEVEL"
    logFormat }

end Environment
end DiceBot
