import DiceBot.Console.Doctor
import DiceBot.Console.Overview
import DiceBot.Database.Record
import DiceBot.Roll.Reply
import DiceBot.Server.HomePage

/-!
The commands of the console and what each of them prints.
-/

namespace DiceBot.Console

open Json (Value)

inductive Command where
  | migrate (undo : Bool)
  | config
  | doctor (json : Bool)
  | roll (text user command : String)
  deriving DecidableEq, Repr

/-- What a command prints, without the line break at the end, and the status that it exits with. -/
structure Outcome where
  exitCode : Nat
  output : String
  deriving DecidableEq, Repr

inductive Trouble where
  | settings (error : SettingsError)
  | connect (error : Database.ConnectError)
  | migration (error : Database.MigrationError)
  deriving DecidableEq, Repr

namespace Trouble

def name : Trouble → String
  | .settings _ => "config_validation"
  | .connect _ => "db_connectivity"
  | .migration _ => "migration"

def message : Trouble → String
  | .settings error => "configuration issue: " ++ error.message
  | .connect error => error.detail
  | .migration error => error.message

def exitCode : Trouble → Nat
  | .settings _ => 2
  | .connect _ => 4
  | .migration _ => 5

end Trouble

def migrationOutcome (result : Except Trouble String) : Outcome :=
  let record (status : String) (trouble : Value) (message : String) : String :=
    Value.render (.record [("command", .text "migrate"), ("status", .text status),
      ("error_class", trouble), ("message", .text message)])
  match result with
  | .ok message => ⟨0, record "ok" .null message⟩
  | .error trouble => ⟨trouble.exitCode, record "error" (.text trouble.name) trouble.message⟩

def revertedMessage : Option Int → String
  | some version => "reverted migration " ++ toString version
  | none => "no applied migrations to revert"

/-- Applies or reverts a migration, in a database that is made if it is not there. -/
def runMigration (loaded : Except SettingsError Settings) (undo : Bool) (disk : Database.Disk) :
    Outcome × Database.Disk :=
  match loaded with
  | .error error => (migrationOutcome (.error (.settings error)), disk)
  | .ok settings =>
    match disk.connect settings.databaseUrl with
    | .error error => (migrationOutcome (.error (.connect error)), disk)
    | .ok (location, database) =>
      let (result, database) :=
        if undo then
          let (result, database) := location.change Database.State.revert database
          (result.map revertedMessage, database)
        else
          let (result, database) := location.change Database.State.migrate database
          (result.map fun _ => "applied pending migrations", database)
      let outcome := match result with
        | .ok message => .ok message
        | .error error => .error (.migration error)
      (migrationOutcome outcome, disk.keepAt location database)

def runDoctor (loaded : Except SettingsError Settings) (json : Bool) (disk : Database.Disk) :
    Outcome × Database.Disk :=
  let (found, disk) := findings loaded disk
  (⟨if allPass found then 0 else 1,
    if json then Value.renderLines "" (reportJson found) else report found⟩, disk)

/-- Rolls under the name of the settings, or the usual one when they cannot be loaded. -/
def runRoll {δ : Type} (loaded : Except SettingsError Settings) (text user command : String)
    (dice : Roll.Dice δ) (s : δ) : Outcome × δ :=
  let settings := match loaded with
    | .ok settings => settings
    | .error _ => .usual
  let about : Roll.About := ⟨settings.nameFull, Server.botVersion, command⟩
  let (reply, s) := Roll.reply (Text.strip text) user about dice s
  let exitCode := match reply with
    | .rejected _ => 1
    | _ => 0
  (⟨exitCode, reply.text⟩, s)

/-- The files of a directory, with the databases that were made in it. -/
def withDatabases (files : Files) (disk : Database.Disk) : Files where
  entry? path :=
    match (disk.slot path).toBytes? with
    | some bytes => some (.file bytes)
    | none => files.entry? path

def Command.run {δ : Type} (c : Command) (files : Files) (env : Environment) (dice : Roll.Dice δ)
    (disk : Database.Disk) (s : δ) : Outcome × Database.Disk × δ :=
  let files := withDatabases files disk
  let loaded := Settings.load files env .usual
  match c with
  | .migrate undo =>
    let (outcome, disk) := runMigration loaded undo disk
    (outcome, disk, s)
  | .config => (⟨0, overview files env⟩, disk, s)
  | .doctor json =>
    let (outcome, disk) := runDoctor loaded json disk
    (outcome, disk, s)
  | .roll text user command =>
    let (outcome, s) := runRoll loaded text user command dice s
    (outcome, disk, s)

end DiceBot.Console
