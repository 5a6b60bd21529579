import DiceBot.Proofs.Console.Session
import DiceBot.Proofs.Settings.Secrets

/-!
Commands in environments that differ in nothing but secrets of the same length: they print the same
and leave the same databases behind.
-/

namespace DiceBot.Console

open Database (Disk)

variable {env env' : Environment} {files : Files} {s s' : Settings}
  {loaded loaded' : Except SettingsError Settings}

theorem redact_eq {secret secret' : String} (h : SameLength secret secret') :
    redact secret = redact secret' := by
  rw [redact, redact, h.size]

theorem shownSettings_alike (h : s.Alike s') : shownSettings s = shownSettings s' := by
  obtain ⟨key, key', hkey, hkey', hlength⟩ := h.tokenKey
  rw [h.others]
  simp only [shownSettings, hkey, hkey', Option.elim, redact_eq h.clientSecret, redact_eq hlength]

theorem overview_alike (h : env.Alike env') (hfiles : files.NamesNoSecret) :
    overview files env = overview files env' := by
  have hload := Settings.load_alike h hfiles
  unfold overview sourceOf
  rw [h.isSet_eq]
  generalize Settings.load files env .usual = loaded, Settings.load files env' .usual = loaded'
    at hload ⊢
  cases hload with
  | error e => rfl
  | ok hs => simp only [shownSettings_alike hs]

theorem findCredentials_alike (h : s.Alike s') : findCredentials s = findCredentials s' := by
  rw [h.others]
  simp only [findCredentials, h.clientSecret.left, h.clientSecret.right, Settings.validUrl,
    Settings.root]

theorem findings_alike (h : SameOutcome Settings.Alike loaded loaded') (disk : Disk) :
    findings loaded disk = findings loaded' disk := by
  cases h with
  | error e => rfl
  | ok hs =>
    simp only [findings, findDatabase, findCredentials_alike hs, hs.databaseUrl]

theorem runMigration_alike (h : SameOutcome Settings.Alike loaded loaded') (undo : Bool)
    (disk : Disk) : runMigration loaded undo disk = runMigration loaded' undo disk := by
  cases h with
  | error e => rfl
  | ok hs => simp only [runMigration, hs.databaseUrl]

theorem runRoll_alike {δ : Type} (h : SameOutcome Settings.Alike loaded loaded')
    (text user command : String) (dice : Roll.Dice δ) (d : δ) :
    runRoll loaded text user command dice d = runRoll loaded' text user command dice d := by
  cases h with
  | error e => rfl
  | ok hs =>
    unfold runRoll
    dsimp only
    rw [hs.nameFull]

/-- One command: its secrets decide nothing that it prints, keeps or rolls. -/
theorem run_alike {δ : Type} (h : env.Alike env') {disk : Disk}
    (hfiles : (withDatabases files disk).NamesNoSecret) (command : Command) (dice : Roll.Dice δ)
    (d : δ) : command.run files env dice disk d = command.run files env' dice disk d := by
  have hload := Settings.load_alike h hfiles
  cases command with
  | migrate undo => rw [run_migrate, run_migrate, runMigration_alike hload]
  | config => rw [run_config, run_config, overview_alike h hfiles]
  | doctor json => rw [run_doctor, run_doctor, runDoctor_eq, runDoctor_eq, findings_alike hload]
  | roll text user command => rw [run_roll, run_roll, runRoll_alike hload]

/-- The file of a database names no variable, and hides other settings files at most. -/
theorem namesNoSecret_keepAt {disk : Disk} (h : (withDatabases files disk).NamesNoSecret)
    (l : Database.Location) (database : Database.State) :
    (withDatabases files (disk.keepAt l database)).NamesNoSecret := by
  have hslot := disk.slot_keepAt l database
  have hthere (path : String) (hpath : (withDatabases files disk).isThere path) :
      (withDatabases files (disk.keepAt l database)).isThere path := by
    rcases hslot path with hsame | hholds
    · simpa only [Files.isThere, withDatabases, hsame] using hpath
    · exact isThere_withDatabases hholds
  intro path text hchosen hread
  -- a chosen file that is not the database kept now was there, and chosen, before
  rcases hslot path with hsame | hholds
  · have hentry : Files.entry? (withDatabases files (disk.keepAt l database)) path =
        Files.entry? (withDatabases files disk) path := by
      simp only [withDatabases, hsame]
    have hchosen' : (withDatabases files disk).settingsPath? none = some path := by
      obtain ⟨hpath, before, after, hlist, hbefore⟩ := List.find?_eq_some_iff_append.mp hchosen
      refine List.find?_eq_some_iff_append.mpr ⟨?_, before, after, hlist, fun other hother => ?_⟩
      · rwa [Files.isThere, ← hentry]
      · have hnot := hbefore other hother
        simp only [Bool.not_eq_true', ← Bool.not_eq_true] at hnot ⊢
        exact fun hpath => hnot (hthere other hpath)
    exact h hchosen' (by rwa [Files.text?, ← hentry])
  · rw [text_withDatabases hholds hread]
    have hnone : Interpolation.names .outside "a database of teams\n".toList = [] := by
      decide +kernel
    rw [hnone]
    exact fun _ hname => absurd hname List.not_mem_nil

/-- Any commands in a directory print the same and leave the same databases behind, whatever the
secrets in the environment are, as long as they are as long and the settings file does not take
anything from them. -/
theorem secrets_unseen {δ : Type} (h : env.Alike env') {disk : Disk}
    (hfiles : (withDatabases files disk).NamesNoSecret) (dice : Roll.Dice δ)
    (steps : List (Command × δ)) :
    session files env dice disk steps = session files env' dice disk steps := by
  induction steps generalizing disk with
  | nil => rfl
  | cons step steps ih =>
    obtain ⟨command, d⟩ := step
    have hkept : (withDatabases files (command.run files env dice disk d).2.1).NamesNoSecret := by
      rcases run_disk files env dice disk d command with hsame | ⟨l, database, hkeep⟩
      · rwa [hsame]
      · rw [hkeep]
        exact namesNoSecret_keepAt hfiles l database
    rw [session_cons, session_cons, ih hkept, run_alike h hfiles command dice d]

def secretEnvironment (secret key : String) : Environment :=
  .ofList [("BOT_ID", some "id"), ("ROLLBOT_SLACK_CLIENT_SECRET", some secret),
    ("ROLLBOT_DATABASE_TOKEN_KEY", some key)]

theorem secretEnvironment_alike {secret secret' key key' : String} (h : SameLength secret secret')
    (hkey : SameLength key key') :
    (secretEnvironment secret key).Alike (secretEnvironment secret' key') where
  others name hname := by
    simp only [secretVariables, List.mem_cons, List.not_mem_nil, or_false, not_or] at hname
    simp only [secretEnvironment, Environment.ofList, List.lookup_cons,
      beq_false_of_ne hname.1, beq_false_of_ne hname.2]
  secrets name hname := by
    simp only [secretVariables, List.mem_cons, List.not_mem_nil, or_false] at hname
    rcases hname with rfl | rfl
    · exact ⟨secret, secret', rfl, rfl, h⟩
    · exact ⟨key, key', rfl, rfl, hkey⟩

theorem idFiles_namesNoSecret : (withDatabases idFiles emptyDisk).NamesNoSecret := by
  intro path text hchosen hread
  have hpath : (withDatabases idFiles emptyDisk).settingsPath? none = some "rollbot.toml" := by
    decide +kernel
  have htext : (withDatabases idFiles emptyDisk).text? "rollbot.toml" = some idFile :=
    Files.text?_only ..
  have hnames : Interpolation.names .outside idFile.toList = ["BOT_ID"] := by decide +kernel
  cases hpath.symm.trans hchosen
  cases htext.symm.trans hread
  rw [hnames]
  decide

theorem secrets_unseen_doctor :
    (secretEnvironment "first secret" "short").Alike (secretEnvironment " other-secret" "türe") ∧
    (withDatabases idFiles emptyDisk).NamesNoSecret ∧
    session idFiles (secretEnvironment "first secret" "short") (.cycling #[3]) emptyDisk
        [(.doctor true, 0), (.migrate false, 0), (.config, 0), (.roll "2d6" "al" "/roll", 0),
          (.migrate true, 0)] =
      session idFiles (secretEnvironment " other-secret" "türe") (.cycling #[3]) emptyDisk
        [(.doctor true, 0), (.migrate false, 0), (.config, 0), (.roll "2d6" "al" "/roll", 0),
          (.migrate true, 0)] := by
  have halike : (secretEnvironment "first secret" "short").Alike
      (secretEnvironment " other-secret" "türe") :=
    secretEnvironment_alike ⟨by decide, by decide, by decide⟩ ⟨by decide, by decide, by decide⟩
  exact ⟨halike, idFiles_namesNoSecret, secrets_unseen halike idFiles_namesNoSecret _ _⟩

end DiceBot.Console
