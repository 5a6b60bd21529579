import DiceBot.Bytes.Utf8
import DiceBot.Settings.Interpolation
import DiceBot.Toml.Read

/-!
The settings file: where it is found, and the settings that it gives.
-/

namespace DiceBot

inductive FileEntry where
  | directory
  | file (bytes : List UInt8)
  deriving DecidableEq, Repr

structure Files where
  entry? : (path : String) → Option FileEntry

namespace Files

def isThere (files : Files) (path : String) : Bool := (files.entry? path).isSome

def text? (files : Files) (path : String) : Option String :=
  match files.entry? path with
  | some (.file bytes) => Bytes.ofUtf8? bytes
  | _ => none

def usualPaths : List String := ["rollbot.toml", "config/rollbot.toml"]

/-- The path of the settings file: the given one, or the first usual one. -/
def settingsPath? (files : Files) : (given : Option String) → Option String
  | some path => if files.isThere path then some path else none
  | none => usualPaths.find? files.isThere

end Files

namespace Layer

open Toml (Value)

/-- A reader of one setting, which is absent when no value is given. -/
def optional? {α : Type} (read : Value → Option α) : Option Value → Option (Option α)
  | none => some none
  | some v => (read v).map some

def text? : Value → Option String
  | .string text => some text
  | _ => none

def texts? : Value → Option (List String)
  | .array items => items.mapM text?
  | _ => none

def natBelow? (bound : Nat) : Value → Option Nat
  | .integer (.ofNat n) => if n < bound then some n else none
  | _ => none

/-- A log format is its name, or a table whose only entry is an empty table of that name. -/
def logFormat? : Value → Option LogFormat
  | .string name => LogFormat.ofName? name
  | .table _ [(name, .table _ [])] => LogFormat.ofName? name
  | _ => none

/-- The values of a section by the names of its settings. An array gives all of them in their order,
and a date is a section without settings. -/
def section? (settings : List String) : Option Value → Option ((name : String) → Option Value)
  | none | some .date => some fun _ => none
  | some (.table _ entries) => some fun name => Toml.Entries.find? name entries
  | some (.array items) | some (.tables items) =>
    if items.length < settings.length then none else some fun name => items[settings.idxOf name]?
  | some _ => none

def appSettings : List String := ["name", "name_full", "base_url", "allowed_commands"]

def databaseSettings : List String := ["url", "max_connections", "timeout_secs", "token_key"]

def slackSettings : List String :=
  ["client_id", "client_secret", "oauth_url", "api_base_url", "scopes", "bot_username",
   "bot_icon_emoji", "state_max_age_secs", "request_timeout_secs"]

def serverSettings : List String := ["bind_address", "port", "graceful_shutdown_secs"]

def loggingSettings : List String := ["level", "format"]

/-- Reads each setting from the values of its section. -/
def ofSections? (app database slack server logging : (name : String) → Option Value) :
    Option Layer := do
  return {
    name := ← optional? text? (app "name")
    nameFull := ← optional? text? (app "name_full")
    baseUrl := ← optional? text? (app "base_url")
    allowedCommands := ← optional? texts? (app "allowed_commands")
    databaseUrl := ← optional? text? (database "url")
    maxConnections := ← optional? (natBelow? Word.count32) (database "max_connections")
    databaseTimeout := ← optional? (natBelow? Word.count64) (database "timeout_secs")
    tokenKey := ← optional? text? (database "token_key")
    clientId := ← optional? text? (slack "client_id")
    clientSecret := ← optional? text? (slack "client_secret")
    oauthUrl := ← optional? text? (slack "oauth_url")
    apiBaseUrl := ← optional? text? (slack "api_base_url")
    scopes := ← optional? texts? (slack "scopes")
    botUsername := ← optional? text? (slack "bot_username")
    botIcon := ← optional? text? (slack "bot_icon_emoji")
    stateMaxAge := ← optional? (natBelow? Word.count64) (slack "state_max_age_secs")
    requestTimeout := ← optional? (natBelow? Word.count64) (slack "request_timeout_secs")
    bindAddress := ← optional? text? (server "bind_address")
    port := ← optional? (natBelow? Word.count16) (server "port")
    shutdownTimeout := ← optional? (natBelow? Word.count64) (server "graceful_shutdown_secs")
    logLevel := ← optional? text? (logging "level")
    logFormat := ← optional? logFormat? (logging "format") }

def ofDocument? (document : Toml.Entries) : Option Layer := do
  let app ← section? appSettings (document.find? "app")
  let database ← section? databaseSettings (document.find? "database")
  let slack ← section? slackSettings (document.find? "slack")
  let server ← section? serverSettings (document.find? "server")
  let logging ← section? loggingSettings (document.find? "logging")
  ofSections? app database slack server logging

def ofFile (files : Files) (env : Environment) (path : String) : Except SettingsError Layer := do
  match files.text? path with
  | none => .error (.unreadableFile path)
  | some text =>
    let text ← env.interpolate text
    match (Toml.parse? text).bind ofDocument? with
    | none => .error (.malformedFile path)
    | some layer => .ok layer

end Layer
end DiceBot
