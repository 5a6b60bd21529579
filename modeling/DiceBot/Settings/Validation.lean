import DiceBot.Settings.Error
import DiceBot.Settings.Basic
import DiceBot.Text.Blank

/-!
The rules that settings have to keep.
-/

namespace DiceBot.Settings

def isHttpUrl (url : String) : Bool :=
  Text.startsWith "http://" url || Text.startsWith "https://" url

/-- The database is a file or in memory; blanks around its address do not count. -/
def isDatabaseUrl (url : String) : Bool :=
  let url := Text.strip url
  Text.startsWith "sqlite://" url || Text.startsWith "sqlite::" url || url == ":memory:"

def logLevels : List String := ["trace", "debug", "info", "warn", "error"]

def require (kept : Bool) (problem : Problem) : Except Problem Unit :=
  if kept then .ok () else .error problem

/-- The first command that does not start with a slash. -/
def requireSlashes (commands : List String) : Except Problem Unit :=
  match commands.find? fun command => !Text.startsWith "/" command with
  | none => .ok ()
  | some command => .error (.commandWithoutSlash command)

def check (s : Settings) : Except Problem Unit := do
  require (!Text.isAllBlank s.nameFull) .blankName
  require (isHttpUrl s.baseUrl) .baseUrlScheme
  require (!s.allowedCommands.isEmpty) .noCommands
  requireSlashes s.allowedCommands
  require (isDatabaseUrl s.databaseUrl) .databaseUrl
  require (s.maxConnections != 0) .noConnections
  require (1 ≤ s.databaseTimeout && s.databaseTimeout ≤ 300) .databaseTimeout
  require (!s.tokenKey.any Text.isAllBlank) .blankTokenKey
  require (!Text.isAllBlank s.clientId) .noClientId
  require (!Text.isAllBlank s.clientSecret) .noClientSecret
  require (isHttpUrl s.oauthUrl) .oauthUrlScheme
  require (isHttpUrl s.apiBaseUrl) .apiBaseUrlScheme
  require (s.scopes.any fun scope => !Text.isAllBlank scope) .noScopes
  require (s.stateMaxAge != 0) .noStateAge
  require (1 ≤ s.requestTimeout && s.requestTimeout ≤ 120) .requestTimeout
  require (s.port != 0) .noPort
  require (s.shutdownTimeout != 0) .noShutdownTimeout
  require (logLevels.contains (Text.lower (Text.strip s.logLevel))) .logLevel

end DiceBot.Settings
