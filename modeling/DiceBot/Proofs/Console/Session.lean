import DiceBot.Console.Command
import DiceBot.Proofs.Bytes.Utf8
import DiceBot.Proofs.Database.Disk

/-!
Commands that are run one after another in a directory: what they print, the databases that they
leave behind, and what these are to the next command that looks for its settings.
-/

namespace DiceBot

/-- What is found first depends on the items up to it only. -/
theorem find?_congr_until {α : Type} {p q : α → Bool} {list : List α}
    (h : ∀ a ∈ list.takeWhile (!p ·) ++ (list.find? p).toList, p a = q a) :
    list.find? p = list.find? q := by
  induction list with
  | nil => rfl
  | cons a list ih =>
    rw [List.find?_cons, List.find?_cons]
    cases hp : p a with
    | true => rw [← h a (by simp [hp]), hp]
    | false =>
      rw [← h a (by simp [hp]), hp]
      exact ih fun b hb => h b (by simpa [hp] using .inr (by simpa using hb))

/-- The paths that are looked at for settings: the usual ones, up to the first that is there. -/
def Files.lookedAt (files : Files) : List String :=
  usualPaths.takeWhile (!files.isThere ·) ++ (usualPaths.find? files.isThere).toList

section Files

variable {files files' : Files} {path : String}
  (h : ∀ path ∈ files.lookedAt, files.entry? path = files'.entry? path)

include h

/-- What there is where settings are looked for decides which file is taken. -/
theorem Files.settingsPath?_congr : files.settingsPath? none = files'.settingsPath? none :=
  find?_congr_until fun path hpath => congrArg Option.isSome (h path hpath)

theorem Files.text?_congr (hchosen : files.settingsPath? none = some path) :
    files.text? path = files'.text? path := by
  have hlooked : path ∈ files.lookedAt := by
    rw [lookedAt, show usualPaths.find? files.isThere = some path from hchosen]
    exact List.mem_append_right _ List.mem_cons_self
  rw [text?, text?, h path hlooked]

theorem Settings.load_congr (env : Environment) :
    load files env .usual = load files' env .usual := by
  have hlayer : fileLayer files env .usual = fileLayer files' env .usual := by
    unfold fileLayer
    rw [show LoadOptions.usual.path = none from rfl, ← Files.settingsPath?_congr h]
    cases hchosen : files.settingsPath? none with
    | none => rfl
    | some path => simp only [Layer.ofFile, Files.text?_congr h hchosen]
  rw [load, load, hlayer]

theorem Console.overview_congr (env : Environment) : overview files env = overview files' env := by
  have hwritten : writtenFile files = writtenFile files' := by
    unfold writtenFile
    rw [← Files.settingsPath?_congr h]
    cases hchosen : files.settingsPath? none with
    | none => rfl
    | some path =>
      simp only [Option.bind_eq_bind, Option.bind_some, Files.text?_congr h hchosen]
  unfold overview
  rw [Settings.load_congr h env, hwritten]

end Files

namespace Console

open Database (Disk Slot)

/-- A directory where nothing is kept yet. -/
def emptyDisk : Disk := ⟨some, []⟩

section Session

variable {δ : Type} (files : Files) (env : Environment) (dice : Roll.Dice δ)

/-- What the commands print, and the databases after them. Each command has dice of its own. -/
def session : Disk → List (Command × δ) → List Outcome × Disk
  | disk, [] => ([], disk)
  | disk, (command, s) :: steps =>
    let (outcome, disk, _) := command.run files env dice disk s
    let (outcomes, disk) := session disk steps
    (outcome :: outcomes, disk)

variable {files env dice}

theorem session_cons (disk : Disk) (command : Command) (s : δ) (steps : List (Command × δ)) :
    session files env dice disk ((command, s) :: steps) =
      ((command.run files env dice disk s).1 ::
        (session files env dice (command.run files env dice disk s).2.1 steps).1,
      (session files env dice (command.run files env dice disk s).2.1 steps).2) := rfl

variable (files env dice) (disk : Disk) (s : δ)

theorem run_migrate (undo : Bool) :
    (Command.migrate undo).run files env dice disk s =
      ((runMigration (Settings.load (withDatabases files disk) env .usual) undo disk).1,
        (runMigration (Settings.load (withDatabases files disk) env .usual) undo disk).2, s) := rfl

theorem run_config :
    Command.config.run files env dice disk s =
      (⟨0, overview (withDatabases files disk) env⟩, disk, s) := rfl

theorem run_doctor (json : Bool) :
    (Command.doctor json).run files env dice disk s =
      ((runDoctor (Settings.load (withDatabases files disk) env .usual) json disk).1,
        (runDoctor (Settings.load (withDatabases files disk) env .usual) json disk).2, s) := rfl

theorem run_roll (text user command : String) :
    (Command.roll text user command).run files env dice disk s =
      ((runRoll (Settings.load (withDatabases files disk) env .usual) text user command dice s).1,
        disk,
        (runRoll (Settings.load (withDatabases files disk) env .usual) text user command dice
          s).2) := by
  unfold Command.run
  dsimp only

theorem runDoctor_eq (loaded : Except SettingsError Settings) (json : Bool) :
    runDoctor loaded json disk =
      (⟨if allPass (findings loaded disk).1 then 0 else 1,
        if json then Json.Value.renderLines "" (reportJson (findings loaded disk).1)
        else report (findings loaded disk).1⟩, (findings loaded disk).2) := rfl

/-- A command keeps one database at most. -/
theorem run_disk (command : Command) :
    (command.run files env dice disk s).2.1 = disk ∨
      ∃ l database, (command.run files env dice disk s).2.1 = disk.keepAt l database := by
  cases command with
  | migrate undo =>
    rw [run_migrate]
    unfold runMigration
    split
    · exact .inl rfl
    · split
      · exact .inl rfl
      · exact .inr ⟨_, _, rfl⟩
  | config => exact .inl (by rw [run_config])
  | doctor json =>
    rw [run_doctor, runDoctor_eq]
    cases Settings.load (withDatabases files disk) env .usual with
    | error e => exact .inl rfl
    | ok settings =>
      simp only [findings, findDatabase]
      cases disk.connect settings.databaseUrl with
      | error e => exact .inl rfl
      | ok opened => exact .inr ⟨opened.1, opened.2, rfl⟩
  | roll text user command => exact .inl (by rw [run_roll])

end Session

section Databases

variable {files : Files} {disk : Disk} {path text : String} {database : Database.State}
  (h : disk.slot path = .holds database)

include h

theorem isThere_withDatabases : (withDatabases files disk).isThere path := by
  simp [Files.isThere, withDatabases, h, Slot.toBytes?]

/-- All that the file of a database can be read as is how it starts. -/
theorem text_withDatabases (hread : (withDatabases files disk).text? path = some text) :
    text = "a database of teams\n" := by
  simp only [Files.text?, withDatabases, h, Slot.toBytes?] at hread
  split at hread
  · rw [List.append_nil, Database.header, Bytes.ofUtf8?_utf8] at hread
    exact (Option.some.inj hread).symm
  · rw [Bytes.ofUtf8?_eq_none (b := 0xff) (by simp) (by decide)] at hread
    cases hread

end Databases
end Console
end DiceBot
