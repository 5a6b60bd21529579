import DiceBot.Settings.Load

/-!
An overview of the settings: each with its value and where the value comes from.
-/

namespace DiceBot.Console

/-- A setting as it is shown, with the variables that may give it. -/
structure Shown where
  key : String
  value : String
  variableNames : List String
  deriving DecidableEq, Repr

/-- A secret shows its length in bytes only. -/
def redact (secret : String) : String :=
  let length := (Text.strip secret).utf8ByteSize
  if length = 0 then "<empty>" else "<redacted:" ++ toString length ++ " chars>"

def shownSettings (s : Settings) : List Shown :=
  [⟨"app.name_full", s.nameFull, ["ROLLBOT_APP_NAME_FULL"]⟩,
   ⟨"app.base_url", s.baseUrl, ["ROLLBOT_APP_BASE_URL"]⟩,
   ⟨"app.allowed_commands", ",".intercalate s.allowedCommands, ["ROLLBOT_APP_ALLOWED_COMMANDS"]⟩,
   ⟨"database.url", s.databaseUrl, ["ROLLBOT_DATABASE_URL"]⟩,
   ⟨"database.max_connections", toString s.maxConnections, ["ROLLBOT_DATABASE_MAX_CONNECTIONS"]⟩,
   ⟨"database.timeout_secs", toString s.databaseTimeout, ["ROLLBOT_DATABASE_TIMEOUT_SECS"]⟩,
   ⟨"database.token_key", s.tokenKey.elim "<slack.client_secret>" redact,
     ["ROLLBOT_DATABASE_TOKEN_KEY"]⟩,
   ⟨"slack.client_id", s.clientId, ["ROLLBOT_SLACK_CLIENT_ID"]⟩,
   ⟨"slack.client_secret", redact s.clientSecret, ["ROLLBOT_SLACK_CLIENT_SECRET"]⟩,
   ⟨"slack.oauth_url", s.oauthUrl, ["ROLLBOT_SLACK_OAUTH_URL"]⟩,
   ⟨"slack.api_base_url", s.apiBaseUrl, ["ROLLBOT_SLACK_API_BASE_URL"]⟩,
   ⟨"slack.scopes", " ".intercalate s.scopes, []⟩,
   ⟨"slack.state_max_age_secs", toString s.stateMaxAge, ["ROLLBOT_SLACK_STATE_MAX_AGE_SECS"]⟩,
   ⟨"server.bind_address", s.bindAddress, ["ROLLBOT_SERVER_BIND_ADDRESS"]⟩,
   ⟨"server.port", toString s.port, ["ROLLBOT_SERVER_PORT"]⟩,
   ⟨"server.graceful_shutdown_secs", toString s.shutdownTimeout,
     ["ROLLBOT_SERVER_GRACEFUL_SHUTDOWN_SECS"]⟩,
   ⟨"logging.level", s.logLevel, ["ROLLBOT_LOGGING_LEVEL", "ROLLBOT_LOG_LEVEL"]⟩,
   ⟨"logging.format", s.logFormat.name, ["ROLLBOT_LOGGING_FORMAT", "ROLLBOT_LOG_FORMAT"]⟩]

inductive Source where
  | variable (name : String)
  | file (path : String)
  | usual
  deriving DecidableEq, Repr

def Source.text : Source → String
  | .variable name => "env (" ++ name ++ ")"
  | .file path => "file (" ++ path ++ ")"
  | .usual => "default"

/-- The usual settings file, with what it holds before variables are put in, if that is a
document. -/
def writtenFile (files : Files) : Option (String × Toml.Entries) := do
  let path ← files.settingsPath? none
  return (path, ← Toml.parse? (← files.text? path))

/-- A variable that is set comes first, then the file, if it has the key. -/
def sourceOf (env : Environment) (written : Option (String × Toml.Entries)) (shown : Shown) :
    Source :=
  match shown.variableNames.find? env.isSet with
  | some name => .variable name
  | none =>
    match written with
    | some (path, document) =>
      if document.contains ((List.splitOn '.' shown.key.toList).map String.ofList) then .file path
      else .usual
    | none => .usual

def Shown.line (shown : Shown) (source : Source) : String :=
  "- " ++ shown.key ++ " = " ++ shown.value ++ " (source: " ++ source.text ++ ")"

def overview (files : Files) (env : Environment) : String :=
  match Settings.load files env .usual with
  | .error error => "config validation failed: " ++ error.message
  | .ok settings =>
    "\n".intercalate ("effective config (source precedence: env > file > default):" ::
      (shownSettings settings).map fun shown =>
        shown.line (sourceOf env (writtenFile files) shown))

end DiceBot.Console
