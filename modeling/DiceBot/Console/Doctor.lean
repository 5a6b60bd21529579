import DiceBot.Database.Disk
import DiceBot.Json.Write
import DiceBot.Settings.Load

/-!
The doctor: four checks of whether the bot is ready, in an order that never changes.
-/

namespace DiceBot.Console

open Json (Value)

inductive Verdict where
  | pass
  | fail
  | skipped
  deriving DecidableEq, Repr

def Verdict.word : Verdict → String
  | .pass => "pass"
  | .fail => "fail"
  | .skipped => "skipped"

def Verdict.mark : Verdict → String
  | .pass => "ok"
  | .fail => "fail"
  | .skipped => "skip"

structure Finding where
  name : String
  verdict : Verdict
  details : String
  deriving DecidableEq, Repr

/-- The Slack credentials of the settings have to be there. -/
def findCredentials (s : Settings) : Finding :=
  if Text.isAllBlank s.clientId || Text.isAllBlank s.clientSecret then
    ⟨"slack_credentials", .fail, "slack client id and secret must both be set"⟩
  else
    ⟨"slack_credentials", .pass,
      "client `" ++ s.clientId ++ "` configured; oauth redirect is " ++ s.validUrl⟩

/-- The schema of a database has to be current. -/
def findSchema (database : Database.State) : Finding :=
  match database.pending with
  | .ok 0 => ⟨"database_schema", .pass, "schema is current"⟩
  | .ok n =>
    ⟨"database_schema", .fail, toString n ++ " migration(s) pending; run `rollbot migrate`"⟩
  | .error error => ⟨"database_schema", .fail, "could not read migration state: " ++ error.detail⟩

/-- The database has to open and its schema to be current. Opening a database makes its file. -/
def findDatabase (s : Settings) (disk : Database.Disk) : List Finding × Database.Disk :=
  match disk.connect s.databaseUrl with
  | .error error =>
    ([⟨"database_connectivity", .fail, "failed to connect to database: " ++ error.detail⟩,
      ⟨"database_schema", .skipped, "skipped because the database is unreachable"⟩], disk)
  | .ok (location, database) =>
    ([⟨"database_connectivity", .pass, "connected using `" ++ s.databaseUrl ++ "`"⟩,
      findSchema database], disk.keepAt location database)

def findings (loaded : Except SettingsError Settings) (disk : Database.Disk) :
    List Finding × Database.Disk :=
  match loaded with
  | .error error =>
    (⟨"config_validation", .fail, error.message⟩ ::
      ["slack_credentials", "database_connectivity", "database_schema"].map fun name =>
        ⟨name, .skipped, "skipped because configuration did not load"⟩, disk)
  | .ok settings =>
    let (found, disk) := findDatabase settings disk
    (⟨"config_validation", .pass, "configuration loaded and validated"⟩ ::
      findCredentials settings :: found, disk)

def allPass (found : List Finding) : Bool := found.all fun f => f.verdict = .pass

def summary (found : List Finding) : String :=
  if allPass found then "doctor: all readiness checks passed"
  else "doctor: one or more readiness checks failed"

def report (found : List Finding) : String :=
  "\n".intercalate (summary found ::
    found.map fun f => "- [" ++ f.verdict.mark ++ "] " ++ f.name ++ ": " ++ f.details)

def reportJson (found : List Finding) : Value :=
  .record [("overall_status", .text (if allPass found then Verdict.pass else .fail).word),
    ("summary", .text (summary found)),
    ("checks", .list (fun f => .record [("name", .text f.name), ("status", .text f.verdict.word),
      ("details", .text f.details)]) found)]

end DiceBot.Console
