/-!
Why settings cannot be used.
-/

namespace DiceBot

inductive Problem where
  | blankName
  | baseUrlScheme
  | noCommands
  | commandWithoutSlash (command : String)
  | databaseUrl
  | noConnections
  | databaseTimeout
  | blankTokenKey
  | noClientId
  | noClientSecret
  | oauthUrlScheme
  | apiBaseUrlScheme
  | noScopes
  | noStateAge
  | requestTimeout
  | noPort
  | noShutdownTimeout
  | logLevel
  | logFormat (given : String)
  deriving DecidableEq, Repr

def Problem.message : Problem → String
  | .blankName => "app.name_full must not be empty"
  | .baseUrlScheme => "app.base_url must start with http:// or https://"
  | .noCommands => "app.allowed_commands must list at least one slash command"
  | .commandWithoutSlash command =>
    "app.allowed_commands entry `" ++ command ++ "` must start with `/`"
  | .databaseUrl =>
    "database.url must be a sqlite URL (`sqlite://...`, `sqlite::...`, or `:memory:`)"
  | .noConnections => "database.max_connections must be greater than zero"
  | .databaseTimeout => "database.timeout_secs must be in range 1..=300"
  | .blankTokenKey => "database.token_key must not be blank when set"
  | .noClientId =>
    "slack.client_id is required. Get it from https://api.slack.com/apps > Your App > Basic Information > App Credentials"
  | .noClientSecret =>
    "slack.client_secret is required. Get it from https://api.slack.com/apps > Your App > Basic Information > App Credentials"
  | .oauthUrlScheme => "slack.oauth_url must start with http:// or https://"
  | .apiBaseUrlScheme => "slack.api_base_url must start with http:// or https://"
  | .noScopes => "slack.scopes must request at least one scope"
  | .noStateAge => "slack.state_max_age_secs must be greater than zero"
  | .requestTimeout => "slack.request_timeout_secs must be in range 1..=120"
  | .noPort => "server.port must be greater than zero"
  | .noShutdownTimeout => "server.graceful_shutdown_secs must be greater than zero"
  | .logLevel => "logging.level must be one of trace|debug|info|warn|error"
  | .logFormat given =>
    "unsupported log format `" ++ given ++ "` (expected compact|pretty|json)"

inductive SettingsError where
  | unreadableFile (path : String)
  | malformedFile (path : String)
  | missingFile (path : String)
  | missingVariable (name : String)
  | openInterpolation
  | badVariable (name value : String)
  | invalid (problem : Problem)
  deriving DecidableEq, Repr

def SettingsError.message : SettingsError → String
  | .unreadableFile path => "could not read config file `" ++ path ++ "`: it is not a file of text"
  | .malformedFile path =>
    "could not parse config file `" ++ path ++ "`: it is not a document with these settings"
  | .missingFile path => "required config file was not found: `" ++ path ++ "`"
  | .missingVariable name => "environment variable interpolation failed for `" ++ name ++ "`"
  | .openInterpolation => "unterminated environment interpolation expression"
  | .badVariable name value =>
    "invalid environment override for `" ++ name ++ "`: `" ++ value ++ "`"
  | .invalid problem => "configuration validation failed: " ++ problem.message

end DiceBot
