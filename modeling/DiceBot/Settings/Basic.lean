import DiceBot.Text.Split

/-!
The settings of the bot, their usual values and the addresses that follow from them.
-/

namespace DiceBot

inductive LogFormat where
  | compact
  | pretty
  | json
  deriving DecidableEq, Repr

def LogFormat.name : LogFormat → String
  | .compact => "compact"
  | .pretty => "pretty"
  | .json => "json"

def LogFormat.ofName? (name : String) : Option LogFormat :=
  [LogFormat.compact, .pretty, .json].find? fun format => format.name = name

structure Settings where
  name : String
  nameFull : String
  baseUrl : String
  allowedCommands : List String
  databaseUrl : String
  maxConnections : Nat
  databaseTimeout : Nat
  /-- The passphrase that seals stored tokens; without one it is the client secret. -/
  tokenKey : Option String
  clientId : String
  clientSecret : String
  oauthUrl : String
  apiBaseUrl : String
  scopes : List String
  botUsername : String
  botIcon : String
  stateMaxAge : Nat
  requestTimeout : Nat
  bindAddress : String
  port : Nat
  shutdownTimeout : Nat
  logLevel : String
  logFormat : LogFormat
  deriving DecidableEq, Repr

namespace Settings

def usual : Settings where
  name := "slack_roll"
  nameFull := "Slack Roll"
  baseUrl := "http://localhost:8080"
  allowedCommands := ["/roll", "/rolldice", "/diceroll", "/roll_dice", "/dice_roll"]
  databaseUrl := "sqlite://rollbot.db"
  maxConnections := 5
  databaseTimeout := 30
  tokenKey := none
  clientId := ""
  clientSecret := ""
  oauthUrl := "https://slack.com/oauth/authorize"
  apiBaseUrl := "https://slack.com/api"
  scopes := ["commands", "bot"]
  botUsername := "Roll Bot"
  botIcon := ":game_die:"
  stateMaxAge := 3600
  requestTimeout := 10
  bindAddress := "127.0.0.1"
  port := 8080
  shutdownTimeout := 15
  logLevel := "info"
  logFormat := .compact

/-- The base address without slashes at its end. -/
def root (s : Settings) : String := Text.dropRunAtEnd '/' s.baseUrl

def authUrl (s : Settings) : String := s.root ++ "/authenticate"

def validUrl (s : Settings) : String := s.root ++ "/validate"

def sealPassphrase (s : Settings) : String := s.tokenKey.getD s.clientSecret

end Settings
end DiceBot
