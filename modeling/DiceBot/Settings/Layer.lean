import DiceBot.Settings.Basic

/-!
Layers of settings: each source gives some of the settings, and a layer above another one wins
wherever it gives a value.
-/

namespace DiceBot

structure Layer where
  name : Option String
  nameFull : Option String
  baseUrl : Option String
  allowedCommands : Option (List String)
  databaseUrl : Option String
  maxConnections : Option Nat
  databaseTimeout : Option Nat
  tokenKey : Option String
  clientId : Option String
  clientSecret : Option String
  oauthUrl : Option String
  apiBaseUrl : Option String
  scopes : Option (List String)
  botUsername : Option String
  botIcon : Option String
  stateMaxAge : Option Nat
  requestTimeout : Option Nat
  bindAddress : Option String
  port : Option Nat
  shutdownTimeout : Option Nat
  logLevel : Option String
  logFormat : Option LogFormat
  deriving DecidableEq, Repr

namespace Layer

def empty : Layer :=
  ⟨none, none, none, none, none, none, none, none, none, none, none, none, none, none, none, none,
    none, none, none, none, none, none⟩

def above (upper lower : Layer) : Layer where
  name := upper.name <|> lower.name
  nameFull := upper.nameFull <|> lower.nameFull
  baseUrl := upper.baseUrl <|> lower.baseUrl
  allowedCommands := upper.allowedCommands <|> lower.allowedCommands
  databaseUrl := upper.databaseUrl <|> lower.databaseUrl
  maxConnections := upper.maxConnections <|> lower.maxConnections
  databaseTimeout := upper.databaseTimeout <|> lower.databaseTimeout
  tokenKey := upper.tokenKey <|> lower.tokenKey
  clientId := upper.clientId <|> lower.clientId
  clientSecret := upper.clientSecret <|> lower.clientSecret
  oauthUrl := upper.oauthUrl <|> lower.oauthUrl
  apiBaseUrl := upper.apiBaseUrl <|> lower.apiBaseUrl
  scopes := upper.scopes <|> lower.scopes
  botUsername := upper.botUsername <|> lower.botUsername
  botIcon := upper.botIcon <|> lower.botIcon
  stateMaxAge := upper.stateMaxAge <|> lower.stateMaxAge
  requestTimeout := upper.requestTimeout <|> lower.requestTimeout
  bindAddress := upper.bindAddress <|> lower.bindAddress
  port := upper.port <|> lower.port
  shutdownTimeout := upper.shutdownTimeout <|> lower.shutdownTimeout
  logLevel := upper.logLevel <|> lower.logLevel
  logFormat := upper.logFormat <|> lower.logFormat

def onto (l : Layer) (s : Settings) : Settings where
  name := l.name.getD s.name
  nameFull := l.nameFull.getD s.nameFull
  baseUrl := l.baseUrl.getD s.baseUrl
  allowedCommands := l.allowedCommands.getD s.allowedCommands
  databaseUrl := l.databaseUrl.getD s.databaseUrl
  maxConnections := l.maxConnections.getD s.maxConnections
  databaseTimeout := l.databaseTimeout.getD s.databaseTimeout
  tokenKey := l.tokenKey <|> s.tokenKey
  clientId := l.clientId.getD s.clientId
  clientSecret := l.clientSecret.getD s.clientSecret
  oauthUrl := l.oauthUrl.getD s.oauthUrl
  apiBaseUrl := l.apiBaseUrl.getD s.apiBaseUrl
  scopes := l.scopes.getD s.scopes
  botUsername := l.botUsername.getD s.botUsername
  botIcon := l.botIcon.getD s.botIcon
  stateMaxAge := l.stateMaxAge.getD s.stateMaxAge
  requestTimeout := l.requestTimeout.getD s.requestTimeout
  bindAddress := l.bindAddress.getD s.bindAddress
  port := l.port.getD s.port
  shutdownTimeout := l.shutdownTimeout.getD s.shutdownTimeout
  logLevel := l.logLevel.getD s.logLevel
  logFormat := l.logFormat.getD s.logFormat

end Layer
end DiceBot
