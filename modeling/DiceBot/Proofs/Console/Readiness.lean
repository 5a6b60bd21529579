import DiceBot.Proofs.Console.Session
import DiceBot.Proofs.Database.Schema
import DiceBot.Proofs.Settings.Layering
import DiceBot.Server.Health

/-!
The commands that migrate a database, the doctor and the health of the bot: whatever was run before,
they agree on whether the schema is current, and only a migration and its undoing change what they
say.
-/

namespace DiceBot

namespace Settings

theorem require_eq_ok_iff {kept : Bool} {problem : Problem} {u : Unit} :
    require kept problem = .ok u ↔ kept = true := by
  cases kept <;> simp [require]

/-- Settings that keep the rules have credentials. -/
theorem credentials_of_check {s : Settings} (h : s.check = .ok ()) :
    Text.isAllBlank s.clientId = false ∧ Text.isAllBlank s.clientSecret = false := by
  simp only [check, bind_eq_ok_iff, require_eq_ok_iff, Bool.not_eq_true', exists_const] at h
  obtain ⟨-, -, -, -, -, -, -, -, -, hid, hsecret, -⟩ := h
  exact ⟨hid, hsecret⟩

end Settings

namespace Console

open Database (Disk Location State)

/-- Settings that load in a directory, and whose database is in a file that is not there yet and can
be opened. -/
structure OpensNew (files : Files) (env : Environment) (disk : Disk) (settings : Settings)
    (l : Location) (name : String) : Prop where
  loads : Settings.load (withDatabases files disk) env .usual = .ok settings
  opens : disk.connect settings.databaseUrl = .ok (l, .new)
  inFile : l.target = .file name
  absent : disk.slot name = .absent

/-- The file may also be written, and settings are not looked for there. -/
structure Fresh (files : Files) (env : Environment) (disk : Disk) (settings : Settings)
    (l : Location) (name : String) : Prop extends OpensNew files env disk settings l name where
  changeable : l.immutable = false
  apart : ∀ path ∈ (withDatabases files disk).lookedAt, disk.resolve path ≠ disk.resolve name

/-- The directory as some commands leave it: the database is in a condition, and all other files are
as they were. -/
structure Standing (disk : Disk) (settings : Settings) (l : Location) (name : String) (d : Disk)
    (database : State) : Prop where
  resolve : d.resolve = disk.resolve
  opens : d.connect settings.databaseUrl = .ok (l, database)
  others : ∀ path, disk.resolve path ≠ disk.resolve name → d.slot path = disk.slot path

section Runs

variable {files : Files} {env : Environment} {disk : Disk} {settings : Settings} {l : Location}
  {name : String} {d d' : Disk} {database : State} {δ : Type} {dice : Roll.Dice δ}

theorem OpensNew.standing (h : OpensNew files env disk settings l name) :
    Standing disk settings l name disk .new :=
  ⟨rfl, h.opens, fun _ _ => rfl⟩

theorem Fresh.isFixed (h : Fresh files env disk settings l name) : l.isFixed = false := by
  have hopen := (Disk.connect_eq_ok_iff.mp h.opens).2
  have hwritten : l.readOnly = false := by
    cases hread : l.readOnly with
    | false => rfl
    | true => simp [Disk.openAt, h.inFile, h.absent, hread] at hopen
  simp [Location.isFixed, hwritten, h.changeable]

namespace Standing

theorem entries (hs : Standing disk settings l name d database)
    (h : Fresh files env disk settings l name) :
    ∀ path ∈ (withDatabases files disk).lookedAt,
      Files.entry? (withDatabases files disk) path = Files.entry? (withDatabases files d) path := by
  intro path hpath
  simp only [withDatabases, hs.others path (h.apart path hpath)]

/-- A database that is kept stands in its new condition. -/
theorem keepAt (hs : Standing disk settings l name d database)
    (h : Fresh files env disk settings l name) (database' : State) :
    Standing disk settings l name (d.keepAt l database') database' := by
  have hkeep : d.keepAt l database' = d.put name database' := by
    rw [Disk.keepAt, h.inFile]
  rw [hkeep]
  refine ⟨(Disk.resolve_put ..).trans hs.resolve, Disk.connect_put hs.opens h.inFile _, ?_⟩
  intro path hpath
  rw [Disk.slot_put_of_ne (hs.resolve ▸ hpath), hs.others path hpath]

theorem load (hs : Standing disk settings l name d database)
    (h : Fresh files env disk settings l name) :
    Settings.load (withDatabases files d) env .usual = .ok settings :=
  (Settings.load_congr (hs.entries h) env).symm.trans h.loads

end Standing

/-- What a command exits with and prints when it could do its work. -/
def reported (message : String) : Outcome := ⟨0, (migrationOutcome (.ok message)).output⟩

theorem change_eq {α : Type} (h : l.isFixed = false)
    (change : State → Except Database.MigrationError α × State) (database : State) :
    l.change change database = change database := by
  simp [Location.change, h]

theorem runMigration_migrate (hfixed : l.isFixed = false)
    (hopen : d.connect settings.databaseUrl = .ok (l, database)) {database' : State}
    (hchange : database.migrate = (.ok (), database')) :
    runMigration (.ok settings) false d =
      (reported "applied pending migrations", d.keepAt l database') := by
  simp only [runMigration, hopen, change_eq hfixed, hchange, Bool.false_eq_true, if_false]
  rfl

theorem runMigration_undo (hfixed : l.isFixed = false)
    (hopen : d.connect settings.databaseUrl = .ok (l, database)) {database' : State}
    {version : Option Int} (hchange : database.revert = (.ok version, database')) :
    runMigration (.ok settings) true d =
      (reported (revertedMessage version), d.keepAt l database') := by
  simp only [runMigration, hopen, change_eq hfixed, hchange, if_true]
  rfl

theorem revertedMessage_version :
    revertedMessage (some Database.version) = "reverted migration 1" := by
  decide

theorem revertedMessage_none : revertedMessage none = "no applied migrations to revert" := rfl

theorem findings_ok (hopen : d.connect settings.databaseUrl = .ok (l, database)) :
    findings (.ok settings) d =
      ([⟨"config_validation", .pass, "configuration loaded and validated"⟩,
        findCredentials settings,
        ⟨"database_connectivity", .pass, "connected using `" ++ settings.databaseUrl ++ "`"⟩,
        findSchema database], d.keepAt l database) := by
  simp only [findings, findDatabase, hopen]

/-- The doctor is content with settings that load when the schema is current. -/
theorem exitCode_doctor (h : Fresh files env disk settings l name)
    (hs : Standing disk settings l name d database) (json : Bool) (x : δ) :
    ((Command.doctor json).run files env dice d x).1.exitCode = 0 ↔ database.pending = .ok 0 := by
  obtain ⟨-, -, -, hcheck⟩ := Settings.load_eq_ok_iff.mp h.loads
  obtain ⟨hid, hsecret⟩ := Settings.credentials_of_check hcheck
  have hcredentials : (findCredentials settings).verdict = .pass := by
    simp [findCredentials, hid, hsecret]
  have hschema : (findSchema database).verdict = .pass ↔ database.pending = .ok 0 := by
    unfold findSchema
    split <;> simp_all
  rw [run_doctor, runDoctor_eq, hs.load h, findings_ok hs.opens]
  simp [allPass, hcredentials, hschema]

theorem status_health (hopen : database.closed = false) (now : Time.Instant) :
    (Server.health database now).status = 200 ↔ database.pending = .ok 0 := by
  have hready : (Server.migrationCheck database).ready = true ↔ database.pending = .ok 0 := by
    unfold Server.migrationCheck
    split <;> simp_all
  cases hcheck : (Server.migrationCheck database).ready <;>
    simp [Server.health, Server.databaseCheck, hopen, hcheck, ← hready, Web.Response.json]

/-- A command that migrates nothing. -/
def Command.isQuiet : Command → Bool
  | .migrate _ => false
  | _ => true

/-- Quiet commands leave the database in the condition that it has. -/
theorem Standing.quiet (h : Fresh files env disk settings l name)
    (hs : Standing disk settings l name d database) {command : Command} (hquiet : command.isQuiet)
    (x : δ) :
    Standing disk settings l name (command.run files env dice d x).2.1 database := by
  cases command with
  | migrate undo => cases hquiet
  | config => exact hs
  | doctor json =>
    rw [run_doctor, runDoctor_eq, hs.load h, findings_ok hs.opens]
    exact hs.keepAt h database
  | roll text user command =>
    rw [run_roll]
    exact hs

/-- What a command prints, and the condition that it leaves the database in, is decided by the
condition that it finds the database in. -/
theorem run_standing (h : Fresh files env disk settings l name)
    (hs : Standing disk settings l name d database) (hs' : Standing disk settings l name d' database)
    (command : Command) (x : δ) :
    (command.run files env dice d x).1 = (command.run files env dice d' x).1 ∧
      ∃ database', Standing disk settings l name (command.run files env dice d x).2.1 database' ∧
        Standing disk settings l name (command.run files env dice d' x).2.1 database' := by
  cases command with
  | migrate undo =>
    -- the same change is made to both databases, so that they need not be known here
    rw [run_migrate, run_migrate, hs.load h, hs'.load h]
    simp only [runMigration, hs.opens, hs'.opens]
    exact ⟨trivial, _, hs.keepAt h _, hs'.keepAt h _⟩
  | config =>
    refine ⟨?_, database, hs.quiet h rfl x, hs'.quiet h rfl x⟩
    rw [run_config, run_config, ← overview_congr (hs.entries h), overview_congr (hs'.entries h)]
  | doctor json =>
    refine ⟨?_, database, hs.quiet h rfl x, hs'.quiet h rfl x⟩
    rw [run_doctor, run_doctor, runDoctor_eq, runDoctor_eq, hs.load h, hs'.load h,
      findings_ok hs.opens, findings_ok hs'.opens]
  | roll text user command =>
    refine ⟨?_, database, hs.quiet h rfl x, hs'.quiet h rfl x⟩
    rw [run_roll, run_roll, hs.load h, hs'.load h]

theorem session_standing (h : Fresh files env disk settings l name)
    (hs : Standing disk settings l name d database) (hs' : Standing disk settings l name d' database)
    (steps : List (Command × δ)) :
    (session files env dice d steps).1 = (session files env dice d' steps).1 := by
  induction steps generalizing d d' database with
  | nil => rfl
  | cons step steps ih =>
    obtain ⟨command, x⟩ := step
    obtain ⟨hsame, database', hnext, hnext'⟩ := run_standing h hs hs' command x
    rw [session_cons, session_cons, hsame, ih hnext hnext']

/-- Some migration was applied, and none was reverted after the last one. -/
def Current (commands : List Command) : Prop :=
  ∃ before after, commands = before ++ .migrate false :: after ∧ .migrate true ∉ after

/-- The last command of a history is the migration, or comes after it. -/
theorem current_snoc (commands : List Command) (command : Command) :
    Current (commands ++ [command]) ↔
      command = .migrate false ∨ command ≠ .migrate true ∧ Current commands := by
  constructor
  · rintro ⟨before, after, hsplit, hnot⟩
    -- nothing comes after the migration, or the command comes last of what does
    rcases List.eq_nil_or_concat' after with rfl | ⟨after, last, rfl⟩
    · exact .inl (List.cons.inj (List.append_inj' hsplit rfl).2).1
    · rw [← List.cons_append, ← List.append_assoc] at hsplit
      obtain ⟨rfl, hlast⟩ := List.append_inj' hsplit rfl
      cases hlast
      rw [List.mem_append, List.mem_singleton, not_or] at hnot
      exact .inr ⟨Ne.symm hnot.2, before, after, rfl, hnot.1⟩
  · rintro (rfl | ⟨hnot, before, after, rfl, hafter⟩)
    · exact ⟨commands, [], rfl, List.not_mem_nil⟩
    · exact ⟨before, after ++ [command], by simp, by simp [hafter, Ne.symm hnot]⟩

theorem not_current_nil : ¬Current [] := by
  rintro ⟨before, after, hsplit, -⟩
  cases before <;> cases hsplit

/-- The condition that commands leave a database in which was new before them. -/
def Left (commands : List Command) (database : State) : Prop :=
  (Current commands → database.Migrated []) ∧ (¬Current commands → database.Bare)

theorem left_nil : Left [] .new :=
  ⟨fun h => absurd h not_current_nil, fun _ => Database.State.bare_new⟩

namespace Left

variable {commands : List Command}

theorem opened (hleft : Left commands database) : database.closed = false := by
  by_cases hcurrent : Current commands
  · exact (hleft.1 hcurrent).opened
  · exact (hleft.2 hcurrent).opened

theorem pending_iff (hleft : Left commands database) :
    database.pending = .ok 0 ↔ Current commands := by
  by_cases hcurrent : Current commands
  · simp [hcurrent, (hleft.1 hcurrent).pending_eq]
  · simp [hcurrent, (hleft.2 hcurrent).pending_eq]

theorem migrate (hleft : Left commands database) :
    ∃ database', database.migrate = (.ok (), database') ∧
      Left (commands ++ [.migrate false]) database' := by
  have hcurrent : Current (commands ++ [.migrate false]) := (current_snoc ..).mpr (.inl rfl)
  suffices h : ∃ database', database.migrate = (.ok (), database') ∧ database'.Migrated [] by
    obtain ⟨database', hmigrate, hdone⟩ := h
    exact ⟨database', hmigrate, fun _ => hdone, fun hnot => absurd hcurrent hnot⟩
  by_cases hbefore : Current commands
  · have hm := hleft.1 hbefore
    exact ⟨database, hm.migrate_eq, hm⟩
  · obtain ⟨hok, hm⟩ := (hleft.2 hbefore).migrate
    exact ⟨_, Prod.ext hok rfl, hm⟩

open Classical in
/-- A migration is reverted where there is one. -/
theorem undo (hleft : Left commands database) :
    ∃ database', database.revert =
        (.ok (if Current commands then some Database.version else none), database') ∧
      Left (commands ++ [.migrate true]) database' := by
  have hnot : ¬Current (commands ++ [.migrate true]) := by
    rw [current_snoc]
    rintro (h | ⟨h, -⟩)
    · cases h
    · exact h rfl
  by_cases hbefore : Current commands
  · obtain ⟨hok, hbare⟩ := (hleft.1 hbefore).revert
    rw [if_pos hbefore]
    exact ⟨_, Prod.ext hok rfl, fun hcurrent => absurd hcurrent hnot, fun _ => hbare⟩
  · have hbare := hleft.2 hbefore
    rw [if_neg hbefore]
    exact ⟨database, hbare.revert_eq, fun hcurrent => absurd hcurrent hnot, fun _ => hbare⟩

theorem quiet (hleft : Left commands database) {command : Command} (hquiet : command.isQuiet) :
    Left (commands ++ [command]) database := by
  have hsame : Current (commands ++ [command]) ↔ Current commands := by
    rw [current_snoc]
    cases command with
    | migrate undo => cases hquiet
    | _ => simp
  exact ⟨fun h => hleft.1 (hsame.mp h), fun h => hleft.2 fun hc => h (hsame.mpr hc)⟩

end Left

/-- One more command leaves the database in the condition that its history says. -/
theorem run_left (h : Fresh files env disk settings l name) {commands : List Command}
    (hs : Standing disk settings l name d database) (hleft : Left commands database)
    (command : Command) (x : δ) :
    ∃ database', Standing disk settings l name (command.run files env dice d x).2.1 database' ∧
      Left (commands ++ [command]) database' := by
  cases command with
  | migrate undo =>
    rw [run_migrate, hs.load h]
    cases undo with
    | false =>
      obtain ⟨database', hchange, hdone⟩ := hleft.migrate
      rw [runMigration_migrate h.isFixed hs.opens hchange]
      exact ⟨database', hs.keepAt h database', hdone⟩
    | true =>
      obtain ⟨database', hchange, hdone⟩ := hleft.undo
      rw [runMigration_undo h.isFixed hs.opens hchange]
      exact ⟨database', hs.keepAt h database', hdone⟩
  | config => exact ⟨database, hs.quiet h rfl x, hleft.quiet rfl⟩
  | doctor json => exact ⟨database, hs.quiet h rfl x, hleft.quiet rfl⟩
  | roll text user command => exact ⟨database, hs.quiet h rfl x, hleft.quiet rfl⟩

theorem session_left (h : Fresh files env disk settings l name) {commands : List Command}
    (hs : Standing disk settings l name d database) (hleft : Left commands database)
    (steps : List (Command × δ)) :
    ∃ database', Standing disk settings l name (session files env dice d steps).2 database' ∧
      Left (commands ++ steps.map Prod.fst) database' := by
  induction steps generalizing d database commands with
  | nil => exact ⟨database, hs, by rwa [List.map_nil, List.append_nil]⟩
  | cons step steps ih =>
    obtain ⟨command, x⟩ := step
    obtain ⟨database', hnext, hleft'⟩ := run_left h hs hleft command x
    rw [session_cons, List.map_cons, List.append_cons]
    exact ih hnext hleft'

end Runs

/-- What is to hold in a directory of the commands that are run next, and of the health of a bot
with the same database, when the schema is current and when it is not. -/
structure Agreement {δ : Type} (files : Files) (env : Environment) (dice : Roll.Dice δ)
    (settings : Settings) (l : Location) (d : Disk) (current : Prop) : Prop where
  migrate : ∀ x, ((Command.migrate false).run files env dice d x).1 =
    reported "applied pending migrations"
  doctor : ∀ json x, ((Command.doctor json).run files env dice d x).1.exitCode = 0 ↔ current
  health : ∃ database, d.connect settings.databaseUrl = .ok (l, database) ∧
    ∀ now, (Server.health database now).status = 200 ↔ current
  /-- What the undoing says is decided by what the doctor would have said before it. -/
  undo : ∀ json x y, ((Command.migrate true).run files env dice d x).1 = reported
    (if ((Command.doctor json).run files env dice d y).1.exitCode = 0 then "reverted migration 1"
      else "no applied migrations to revert")
  /-- Later commands print the same without a quiet command before them. -/
  quiet : ∀ command : Command, command.isQuiet → ∀ x later,
    (session files env dice d ((command, x) :: later)).1 =
      (command.run files env dice d x).1 :: (session files env dice d later).1

/-- The checks of the doctor, in its order. -/
def checkNames : List String :=
  ["config_validation", "slack_credentials", "database_connectivity", "database_schema"]

theorem names_findings (loaded : Except SettingsError Settings) (d : Disk) :
    (findings loaded d).1.map Finding.name = checkNames := by
  have hcredentials (s : Settings) : (findCredentials s).name = "slack_credentials" := by
    unfold findCredentials
    split <;> rfl
  have hschema (database : State) : (findSchema database).name = "database_schema" := by
    unfold findSchema
    split <;> rfl
  cases loaded with
  | error e => rfl
  | ok s =>
    simp only [findings, findDatabase]
    cases d.connect s.databaseUrl with
    | error e => simp [hcredentials, checkNames]
    | ok opened => simp [hcredentials, hschema, checkNames]

/-- What the doctor exits with and prints is always about the same four checks. -/
theorem doctor_reports {δ : Type} (files : Files) (env : Environment) (dice : Roll.Dice δ)
    (d : Disk) (json : Bool) (x : δ) : ∃ found, found.map Finding.name = checkNames ∧
      ((Command.doctor json).run files env dice d x).1.output =
        (if json then Json.Value.renderLines "" (reportJson found) else report found) ∧
      (((Command.doctor json).run files env dice d x).1.exitCode = 0 ↔
        ∀ finding ∈ found, finding.verdict = .pass) := by
  refine ⟨_, names_findings (Settings.load (withDatabases files d) env .usual) d, ?_, ?_⟩
  · rw [run_doctor, runDoctor_eq]
  · rw [run_doctor, runDoctor_eq]
    simp [allPass]

/-- After any commands in a directory with a new database, all that read the schema agree that it is
current just when some migration was applied and none was reverted since, and only a migration and
its undoing change what is said later. The doctor makes its four checks in any directory. -/
theorem readiness {δ : Type} (dice : Roll.Dice δ) :
    (∀ {files env disk settings l name}, Fresh files env disk settings l name →
      ∀ history : List (Command × δ),
        Agreement files env dice settings l (session files env dice disk history).2
          (Current (history.map Prod.fst))) ∧
    ∀ files env d json x, ∃ found, found.map Finding.name = checkNames ∧
      ((Command.doctor json).run files env dice d x).1.output =
        (if json then Json.Value.renderLines "" (reportJson found) else report found) ∧
      (((Command.doctor json).run files env dice d x).1.exitCode = 0 ↔
        ∀ finding ∈ found, finding.verdict = .pass) := by
  refine ⟨fun {files env disk settings l name} h history => ?_,
    fun files env d json x => doctor_reports files env dice d json x⟩
  obtain ⟨database, hs, hleft⟩ : ∃ database,
      Standing disk settings l name (session files env dice disk history).2 database ∧
        Left ([] ++ history.map Prod.fst) database :=
    session_left h h.standing left_nil history
  rw [List.nil_append] at hleft
  have hdoctor (json : Bool) (x : δ) :
      ((Command.doctor json).run files env dice
        (session files env dice disk history).2 x).1.exitCode = 0 ↔
        Current (history.map Prod.fst) :=
    (exitCode_doctor h hs json x).trans hleft.pending_iff
  refine ⟨fun x => ?_, hdoctor, ⟨database, hs.opens, fun now => ?_⟩, fun json x y => ?_, ?_⟩
  · obtain ⟨database', hchange, -⟩ := hleft.migrate
    rw [run_migrate, hs.load h, runMigration_migrate h.isFixed hs.opens hchange]
  · exact (status_health hleft.opened now).trans hleft.pending_iff
  · obtain ⟨database', hchange, -⟩ := hleft.undo
    rw [run_migrate, hs.load h, runMigration_undo h.isFixed hs.opens hchange]
    by_cases hcurrent : Current (history.map Prod.fst)
    · rw [if_pos hcurrent, if_pos ((hdoctor json y).mpr hcurrent), revertedMessage_version]
    · rw [if_neg hcurrent, if_neg (mt (hdoctor json y).mp hcurrent), revertedMessage_none]
  · intro command hquiet x later
    rw [session_cons, session_standing h (hs.quiet h hquiet x) hs]

def noFiles : Files := ⟨fun _ => none⟩

def urlEnvironment (url : String) : Environment :=
  .ofList [("ROLLBOT_SLACK_CLIENT_ID", some "id"), ("ROLLBOT_SLACK_CLIENT_SECRET", some "secret"),
    ("ROLLBOT_DATABASE_URL", some url)]

def urlSettings (url : String) : Settings :=
  { Settings.usual with clientId := "id", clientSecret := "secret", databaseUrl := url }

theorem fresh_url : Fresh noFiles (urlEnvironment "sqlite://bot.db?mode=rwc") emptyDisk
    (urlSettings "sqlite://bot.db?mode=rwc") ⟨.file "bot.db", false, false⟩ "bot.db" where
  loads := by decide +kernel
  opens := by decide +kernel
  inFile := rfl
  absent := rfl
  changeable := rfl
  apart := by decide +kernel

theorem readiness_reverted :
    Fresh noFiles (urlEnvironment "sqlite://bot.db?mode=rwc") emptyDisk
      (urlSettings "sqlite://bot.db?mode=rwc") ⟨.file "bot.db", false, false⟩ "bot.db" ∧
    Agreement noFiles (urlEnvironment "sqlite://bot.db?mode=rwc") (.cycling #[3])
      (urlSettings "sqlite://bot.db?mode=rwc") ⟨.file "bot.db", false, false⟩
      (session noFiles (urlEnvironment "sqlite://bot.db?mode=rwc") (.cycling #[3]) emptyDisk
        [(.doctor false, 0), (.migrate false, 0), (.migrate true, 0), (.config, 0)]).2
      (Current [.doctor false, .migrate false, .migrate true, .config]) :=
  ⟨fresh_url, (readiness (.cycling #[3])).1 fresh_url
    [(.doctor false, 0), (.migrate false, 0), (.migrate true, 0), (.config, 0)]⟩

/-- A file that is opened as one that never changes cannot be migrated, and in a file that settings
are looked for in, the database that the first migration makes is in the way of the second one. -/
theorem readiness_fixed_shared :
    (OpensNew noFiles (urlEnvironment "sqlite://x.db?immutable=1") emptyDisk
        (urlSettings "sqlite://x.db?immutable=1") ⟨.file "x.db", false, true⟩ "x.db" ∧
      ((Command.migrate false).run noFiles (urlEnvironment "sqlite://x.db?immutable=1")
        (.cycling #[3]) emptyDisk 0).1.exitCode = 5) ∧
    OpensNew noFiles (urlEnvironment "sqlite://rollbot.toml") emptyDisk
        (urlSettings "sqlite://rollbot.toml") ⟨.file "rollbot.toml", false, false⟩ "rollbot.toml" ∧
      (session noFiles (urlEnvironment "sqlite://rollbot.toml") (.cycling #[3]) emptyDisk
        [(.migrate false, 0), (.migrate false, 0)]).1.map Outcome.exitCode = [0, 2] := by
  refine ⟨⟨⟨?_, ?_, rfl, rfl⟩, ?_⟩, ⟨?_, ?_, rfl, rfl⟩, ?_⟩ <;> decide +kernel

end Console
end DiceBot
