import DiceBot.Proofs.Settings.Document
import DiceBot.Proofs.Settings.Environment
import DiceBot.Proofs.Settings.Reading
import DiceBot.Settings.Load

/-!
Loading settings: each of them comes from the highest source that gives it, on its own, and what
cannot be loaded fails for the first reason in the order of file, variables and rules.
-/

namespace DiceBot

/-- The settings file that is chosen: the given one if it is there, else, when none is given, the
first of the two usual ones that is there. -/
inductive Files.Chooses (files : Files) : (given chosen : Option String) → Prop
  | given {path : String} {entry : FileEntry} (there : files.entry? path = some entry) :
    files.Chooses (some path) (some path)
  | notThere {path : String} (absent : files.entry? path = none) : files.Chooses (some path) none
  | usual {entry : FileEntry} (there : files.entry? "rollbot.toml" = some entry) :
    files.Chooses none (some "rollbot.toml")
  | below {entry : FileEntry} (absent : files.entry? "rollbot.toml" = none)
    (there : files.entry? "config/rollbot.toml" = some entry) :
    files.Chooses none (some "config/rollbot.toml")
  | nowhere (absent : files.entry? "rollbot.toml" = none)
    (absent' : files.entry? "config/rollbot.toml" = none) : files.Chooses none none

theorem Files.chooses_iff {files : Files} {given chosen : Option String} :
    files.Chooses given chosen ↔ files.settingsPath? given = chosen := by
  constructor
  · intro h
    cases h with
    | given there => simp [settingsPath?, isThere, there]
    | notThere absent => simp [settingsPath?, isThere, absent]
    | usual there => simp [settingsPath?, usualPaths, isThere, there]
    | below absent there => simp [settingsPath?, usualPaths, isThere, absent, there]
    | nowhere absent absent' => simp [settingsPath?, usualPaths, isThere, absent, absent']
  · rintro rfl
    cases given with
    | some path =>
      cases hpath : files.entry? path with
      | none => simpa [settingsPath?, isThere, hpath] using .notThere hpath
      | some entry => simpa [settingsPath?, isThere, hpath] using .given hpath
    | none =>
      cases husual : files.entry? "rollbot.toml" with
      | some entry => simpa [settingsPath?, usualPaths, isThere, husual] using .usual husual
      | none =>
        cases hbelow : files.entry? "config/rollbot.toml" with
        | none =>
          simpa [settingsPath?, usualPaths, isThere, husual, hbelow] using .nowhere husual hbelow
        | some entry =>
          simpa [settingsPath?, usualPaths, isThere, husual, hbelow] using .below husual hbelow

theorem Files.Chooses.unique {files : Files} {given chosen chosen' : Option String}
    (h : files.Chooses given chosen) (h' : files.Chooses given chosen') : chosen = chosen' :=
  (chooses_iff.mp h).symm.trans (chooses_iff.mp h')

/-- A file of text. -/
def Files.Holds (files : Files) (path text : String) : Prop :=
  files.entry? path = some (.file (Bytes.utf8 text))

theorem Files.text?_eq_some_iff {files : Files} {path text : String} :
    files.text? path = some text ↔ files.Holds path text := by
  unfold text? Holds
  constructor
  · intro h
    split at h
    case h_1 hfile => rw [hfile, Bytes.utf8_of_ofUtf8? h]
    case h_2 => cases h
  · intro h
    rw [h]
    exact Bytes.ofUtf8?_utf8 text

theorem Files.Holds.unique {files : Files} {path text text' : String} (h : files.Holds path text)
    (h' : files.Holds path text') : text = text' :=
  Option.some.inj ((text?_eq_some_iff.mpr h).symm.trans (text?_eq_some_iff.mpr h'))

theorem Files.holds_only (path text : String) : (Files.only path text).Holds path text := if_pos rfl

theorem Files.text?_eq_none_iff {files : Files} {path : String} :
    files.text? path = none ↔ ∀ text, ¬ files.Holds path text := by
  simp only [Option.eq_none_iff_forall_ne_some, ne_eq, text?_eq_some_iff]

/-- What the settings file comes to. -/
inductive FileStage (files : Files) (env : Environment) (options : LoadOptions) :
    Except SettingsError Layer → Prop
  | noFile {l : Layer} (absent : files.Chooses options.path none)
    (optional : options.required = false) (nothing : ∀ f ∈ settings, f.inLayer l = none) :
    FileStage files env options (.ok l)
  | missing (absent : files.Chooses options.path none) (required : options.required = true) :
    FileStage files env options (.error (.missingFile (options.path.getD "rollbot.toml")))
  | unreadable {path : String} (chosen : files.Chooses options.path (some path))
    (unread : ∀ text, ¬ files.Holds path text) :
    FileStage files env options (.error (.unreadableFile path))
  | unfilled {path text : String} {e : SettingsError}
    (chosen : files.Chooses options.path (some path)) (read : files.Holds path text)
    (failed : Interpolation.Filled env text (.error e)) : FileStage files env options (.error e)
  | malformed {path text filled : String} (chosen : files.Chooses options.path (some path))
    (read : files.Holds path text) (done : Interpolation.Filled env text (.ok filled))
    (undecoded : ∀ document, Toml.parse? filled = some document →
      ∃ f ∈ settings, ∀ given, ¬ f.Given document given) :
    FileStage files env options (.error (.malformedFile path))
  | decoded {path text filled : String} {document : Toml.Entries} {l : Layer}
    (chosen : files.Chooses options.path (some path)) (read : files.Holds path text)
    (done : Interpolation.Filled env text (.ok filled))
    (parsed : Toml.parse? filled = some document)
    (gives : ∀ f ∈ settings, f.Given document (f.inLayer l)) : FileStage files env options (.ok l)

theorem decoded_iff {filled : String} {l : Layer} :
    (Toml.parse? filled).bind Layer.ofDocument? = some l ↔
      ∃ document, Toml.parse? filled = some document ∧
        ∀ f ∈ settings, f.Given document (f.inLayer l) := by
  simp only [Option.bind_eq_some_iff, Layer.ofDocument?_eq_some_iff, Setting.given?_eq_some_iff]

theorem undecoded_iff {filled : String} :
    (Toml.parse? filled).bind Layer.ofDocument? = none ↔
      ∀ document, Toml.parse? filled = some document →
        ∃ f ∈ settings, ∀ given, ¬ f.Given document given := by
  simp only [Option.bind_eq_none_iff, Layer.ofDocument?_eq_none_iff, Setting.given?_eq_none_iff]

theorem fileLayer_stage (files : Files) (env : Environment) (options : LoadOptions) :
    FileStage files env options (Settings.fileLayer files env options) := by
  unfold Settings.fileLayer
  cases hchosen : files.settingsPath? options.path with
  | none =>
    have habsent := Files.chooses_iff.mpr hchosen
    cases hrequired : options.required with
    | false => exact .noFile habsent hrequired Layer.empty_eq
    | true => exact .missing habsent hrequired
  | some path =>
    have hpath := Files.chooses_iff.mpr hchosen
    simp only [Layer.ofFile]
    cases hread : files.text? path with
    | none => exact .unreadable hpath (Files.text?_eq_none_iff.mp hread)
    | some text =>
      have hholds := Files.text?_eq_some_iff.mp hread
      cases hdone : env.interpolate text with
      | error e =>
        simp only [hdone, bind, Except.bind]
        exact .unfilled hpath hholds (Interpolation.filled_iff.mp hdone)
      | ok filled =>
        have hfilled := Interpolation.filled_iff.mp hdone
        simp only [hdone, bind, Except.bind]
        cases hparsed : (Toml.parse? filled).bind Layer.ofDocument? with
        | none => exact .malformed hpath hholds hfilled (undecoded_iff.mp hparsed)
        | some l =>
          obtain ⟨document, hdocument, hl⟩ := decoded_iff.mp hparsed
          exact .decoded hpath hholds hfilled hdocument hl

theorem FileStage.eq_fileLayer {files : Files} {env : Environment} {options : LoadOptions}
    {r : Except SettingsError Layer} (h : FileStage files env options r) :
    Settings.fileLayer files env options = r := by
  unfold Settings.fileLayer Layer.ofFile
  cases h with
  | noFile absent optional nothing =>
    have hempty := Layer.ext_table fun f hf => (nothing f hf).trans (Layer.empty_eq f hf).symm
    simp [Files.chooses_iff.mp absent, optional, hempty]
  | missing absent required => simp [Files.chooses_iff.mp absent, required]
  | unreadable chosen unread =>
    simp [Files.chooses_iff.mp chosen, Files.text?_eq_none_iff.mpr unread]
  | unfilled chosen read failed =>
    simp [Files.chooses_iff.mp chosen, Files.text?_eq_some_iff.mpr read,
      Interpolation.filled_iff.mpr failed, bind, Except.bind]
  | malformed chosen read done undecoded =>
    simp [Files.chooses_iff.mp chosen, Files.text?_eq_some_iff.mpr read,
      Interpolation.filled_iff.mpr done, bind, Except.bind, undecoded_iff.mpr undecoded]
  | decoded chosen read done parsed gives =>
    simp [Files.chooses_iff.mp chosen, Files.text?_eq_some_iff.mpr read,
      Interpolation.filled_iff.mpr done, bind, Except.bind, decoded_iff.mpr ⟨_, parsed, gives⟩]

theorem fileStage_iff {files : Files} {env : Environment} {options : LoadOptions}
    {r : Except SettingsError Layer} :
    FileStage files env options r ↔ Settings.fileLayer files env options = r :=
  ⟨FileStage.eq_fileLayer, fun h => h ▸ fileLayer_stage files env options⟩

theorem FileStage.unique {files : Files} {env : Environment} {options : LoadOptions} {l l' : Layer}
    (h : FileStage files env options (.ok l)) (h' : FileStage files env options (.ok l')) :
    l = l' :=
  Except.ok.inj (h.eq_fileLayer.symm.trans h'.eq_fileLayer)

namespace Environment

variable {env : Environment}

theorem not_refused_missingFile {path : String} : ¬ env.Refused (.missingFile path) := by
  have hrow : ∀ f ∈ settings, ∀ name text, f.refusal name text ≠ .missingFile path := by
    simp [settings, Setting.text, Setting.texts, Setting.number, Setting.tokenKey,
      Setting.logFormat]
  rintro ⟨before, f, after, hsettings, ⟨name, text, -, -, he⟩, -⟩
  exact hrow f (by simp [hsettings]) name text he.symm

end Environment

namespace Settings

/-- Every setting is what the caller asks for, else what the variables give, else what the file
gives, else the usual value. -/
def Merges (overrides : Layer) (env : Environment) (file : Layer) (s : Settings) : Prop :=
  ∀ f ∈ settings, ∃ given, f.FromVariables env given ∧
    f.inSettings s = (f.inLayer overrides <|> given <|> f.inLayer file).getD (f.inSettings usual)

variable {overrides file : Layer} {env : Environment} {s : Settings}

theorem merges_of_layer {given : Layer} (h : env.layer = .ok given) :
    s.Merges overrides env file ↔ s = (overrides.above (given.above file)).onto usual := by
  have hrows := Environment.layer_eq_ok_iff.mp h
  have hmerged : ((overrides.above (given.above file)).onto usual).Merges overrides env file := by
    intro f hf
    refine ⟨_, Setting.ofVariables_eq_ok_iff.mp (hrows f hf), ?_⟩
    rw [Layer.onto_eq _ _ f hf, Layer.above_eq _ _ f hf, Layer.above_eq _ _ f hf]
  refine ⟨fun hs => ext_table fun f hf => ?_, fun hs => hs ▸ hmerged⟩
  obtain ⟨given, hgiven, hvalue⟩ := hs f hf
  obtain ⟨given', hgiven', hvalue'⟩ := hmerged f hf
  cases (Setting.ofVariables_eq_ok_iff.mpr hgiven).symm.trans
    (Setting.ofVariables_eq_ok_iff.mpr hgiven')
  exact hvalue.trans hvalue'.symm

/-- Settings can only be merged when all variables can be read. -/
theorem Merges.exists_layer (h : s.Merges overrides env file) :
    ∃ given, env.layer = .ok given := by
  cases hl : env.layer with
  | ok given => exact ⟨given, rfl⟩
  | error e =>
    have hnone : env.refusal? = none := by
      refine List.findSome?_eq_none_iff.mpr fun f hf => ?_
      obtain ⟨given, hgiven, -⟩ := h f hf
      simp [Setting.refusal?, Setting.ofVariables_eq_ok_iff.mpr hgiven]
    simp [Environment.layer_eq_error_iff.mp hl] at hnone

theorem checked_eq_ok_iff {s' : Settings} : s.checked = .ok s' ↔ s = s' ∧ s.check = .ok () := by
  unfold checked
  cases h : s.check <;> simp

theorem checked_eq_error_iff {e : SettingsError} :
    s.checked = .error e ↔ ∃ problem, s.check = .error problem ∧ e = .invalid problem := by
  unfold checked
  cases h : s.check <;> simp [eq_comm]

theorem load_eq_ok_iff {files : Files} {options : LoadOptions} :
    load files env options = .ok s ↔
      ∃ file, FileStage files env options (.ok file) ∧ s.Merges options.overrides env file ∧
        s.check = .ok () := by
  simp only [load, bind_eq_ok_iff, fileStage_iff]
  refine exists_congr fun file => and_congr_right fun _ => ?_
  constructor
  · rintro ⟨given, hl, hs⟩
    obtain ⟨rfl, hcheck⟩ := checked_eq_ok_iff.mp hs
    exact ⟨(merges_of_layer hl).mpr rfl, hcheck⟩
  · rintro ⟨hmerges, hcheck⟩
    obtain ⟨given, hl⟩ := hmerges.exists_layer
    exact ⟨given, hl, checked_eq_ok_iff.mpr
      ⟨((merges_of_layer hl).mp hmerges).symm, (merges_of_layer hl).mp hmerges ▸ hcheck⟩⟩

theorem load_eq_error_iff {files : Files} {options : LoadOptions} {e : SettingsError} :
    load files env options = .error e ↔
      FileStage files env options (.error e) ∨
      ∃ file, FileStage files env options (.ok file) ∧
        (env.Refused e ∨
          ∃ (s : Settings) (problem : Problem), s.Merges options.overrides env file ∧
            s.check = .error problem ∧ e = .invalid problem) := by
  simp only [load, bind_eq_error_iff, fileStage_iff, Environment.layer_eq_error_iff,
    Environment.refusal?_eq_some_iff]
  refine or_congr_right (exists_congr fun file => and_congr_right fun _ => or_congr_right ?_)
  constructor
  · rintro ⟨given, hl, hs⟩
    obtain ⟨problem, hproblem, rfl⟩ := checked_eq_error_iff.mp hs
    exact ⟨_, problem, (merges_of_layer hl).mpr rfl, hproblem, rfl⟩
  · rintro ⟨s, problem, hmerges, hproblem, rfl⟩
    obtain ⟨given, hl⟩ := hmerges.exists_layer
    refine ⟨given, hl, checked_eq_error_iff.mpr ⟨problem, ?_, rfl⟩⟩
    rw [← (merges_of_layer hl).mp hmerges]
    exact hproblem

/-- Only a file that has to be there and is not counts as missing. -/
theorem load_missing_iff {files : Files} {options : LoadOptions} {path : String} :
    load files env options = .error (.missingFile path) ↔
      files.Chooses options.path none ∧ options.required = true ∧
        path = options.path.getD "rollbot.toml" := by
  rw [load_eq_error_iff]
  constructor
  · rintro (hstage | ⟨file, -, hrefused | ⟨s, problem, -, -, h⟩⟩)
    · generalize hr : Except.error (SettingsError.missingFile path) = r at hstage
      cases hstage with
      | missing absent required =>
        cases hr
        exact ⟨absent, required, rfl⟩
      | unfilled chosen read failed =>
        cases hr
        exact absurd (Interpolation.filled_iff.mpr failed) Environment.interpolate_ne_missingFile
      | _ => cases hr
    · exact absurd hrefused Environment.not_refused_missingFile
    · cases h
  · rintro ⟨habsent, hrequired, rfl⟩
    exact .inl (.missing habsent hrequired)

/-- Settings are loaded exactly when the file can be read, all variables can be read and the merged
settings keep the rules. Each setting then comes from its own highest source. The error is the one
of the first stage that fails, and a missing file comes before any variable. -/
theorem load_layered (files : Files) (env : Environment) (options : LoadOptions) :
    (∀ s, load files env options = .ok s ↔
      ∃ file, FileStage files env options (.ok file) ∧ s.Merges options.overrides env file ∧
        s.check = .ok ()) ∧
    (∀ e, load files env options = .error e ↔
      FileStage files env options (.error e) ∨
      ∃ file, FileStage files env options (.ok file) ∧
        (env.Refused e ∨
          ∃ (s : Settings) (problem : Problem), s.Merges options.overrides env file ∧
            s.check = .error problem ∧ e = .invalid problem)) ∧
    ∀ path, load files env options = .error (.missingFile path) ↔
      files.Chooses options.path none ∧ options.required = true ∧
        path = options.path.getD "rollbot.toml" :=
  ⟨fun _ => load_eq_ok_iff, fun _ => load_eq_error_iff, fun _ => load_missing_iff⟩

/-- A file with some settings, one of them from a variable. -/
def layersText : String :=
  "[app]\nname_full = \"Filed\"\n[slack]\nclient_id = \"id\"\n" ++
    "client_secret = \"$\x7bSECRET\x7d\"\n[server]\nport = 1\n"

def layersFile : Layer :=
  { Layer.empty with
    nameFull := some "Filed", clientId := some "id", clientSecret := some "secret", port := some 1 }

def layersEnvironment : Environment :=
  .ofList [("SECRET", some "secret"), ("ROLLBOT_APP_NAME_FULL", some " \t"),
    ("ROLLBOT_APP_BASE_URL", some "https://env.example"),
    ("ROLLBOT_APP_ALLOWED_COMMANDS", some " /r ,, /d"), ("ROLLBOT_SERVER_PORT", some "+9001"),
    ("ROLLBOT_LOGGING_LEVEL", some ""), ("ROLLBOT_LOG_LEVEL", some "debug")]

def layersOptions : LoadOptions :=
  ⟨none, true, { Layer.empty with baseUrl := some "https://bot.example" }⟩

/-- The settings from all four sources. A blank variable is passed over for the file and another one
for its second name, and the base address comes from the caller although a variable gives it too. -/
def layersSettings : Settings :=
  { usual with
    nameFull := "Filed", baseUrl := "https://bot.example", allowedCommands := ["/r", "/d"]
    clientId := "id", clientSecret := "secret", port := 9001, logLevel := "debug" }

theorem layersText_stage : FileStage (.only "rollbot.toml" layersText) layersEnvironment
    layersOptions (.ok layersFile) := by
  obtain ⟨filled, hfilled, hread⟩ : ∃ filled,
      layersEnvironment.interpolate layersText = .ok filled ∧
        (Toml.parse? filled).bind Layer.ofDocument? = some layersFile :=
    ⟨"[app]\nname_full = \"Filed\"\n[slack]\nclient_id = \"id\"\n" ++
      "client_secret = \"secret\"\n[server]\nport = 1\n", by decide +kernel, by decide +kernel⟩
  obtain ⟨document, hparsed, hgives⟩ := decoded_iff.mp hread
  exact .decoded (.usual (Files.holds_only ..)) (Files.holds_only ..)
    (Interpolation.filled_iff.mp hfilled) hparsed hgives

theorem layersSettings_merges :
    layersSettings.Merges layersOptions.overrides layersEnvironment layersFile := by
  have hlayer : layersEnvironment.layer = .ok { Layer.empty with
      baseUrl := some "https://env.example", allowedCommands := some ["/r", "/d"]
      port := some 9001, logLevel := some "debug" } := by
    decide +kernel
  exact (merges_of_layer hlayer).mpr rfl

theorem load_layered_sources :
    FileStage (.only "rollbot.toml" layersText) layersEnvironment layersOptions (.ok layersFile) ∧
    layersSettings.Merges layersOptions.overrides layersEnvironment layersFile ∧
    load (.only "rollbot.toml" layersText) layersEnvironment layersOptions = .ok layersSettings :=
  have hcheck : layersSettings.check = .ok () := by decide +kernel
  ⟨layersText_stage, layersSettings_merges,
    ((load_layered _ layersEnvironment layersOptions).1 layersSettings).mpr
      ⟨layersFile, layersText_stage, layersSettings_merges, hcheck⟩⟩

end Settings
end DiceBot
