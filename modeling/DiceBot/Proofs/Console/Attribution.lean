import DiceBot.Console.Overview
import DiceBot.Proofs.Settings.Layering

/-!
Where the overview says that settings come from, and where the loader takes them from.
-/

namespace DiceBot

open Console (Source)

/-- Where the loader takes a setting from when the caller asks for none. -/
inductive Setting.ComesFrom (f : Setting) (files : Files) (env : Environment) (s : Settings) :
    Source → Prop
  | given {name text : String} (first : f.GivenBy env name text)
    (used : f.Means text (f.inSettings s)) : ComesFrom f files env s (.variable name)
  | file {path : String} {l : Layer} (silent : f.Silent env)
    (chosen : files.Chooses none (some path)) (stage : FileStage files env .usual (.ok l))
    (used : f.inLayer l = some (f.inSettings s)) : ComesFrom f files env s (.file path)
  | usual {l : Layer} (silent : f.Silent env) (stage : FileStage files env .usual (.ok l))
    (absent : f.inLayer l = none) (used : f.inSettings s = f.inSettings .usual) :
    ComesFrom f files env s .usual

theorem Setting.ComesFrom.unique {f : Setting} {files : Files} {env : Environment} {s : Settings}
    {source source' : Source} (h : f.ComesFrom files env s source)
    (h' : f.ComesFrom files env s source') : source = source' := by
  cases h with
  | given first _ =>
    cases h' with
    | given first' _ => rw [(first.unique first').1]
    | file silent' => exact absurd first silent'.not_givenBy
    | usual silent' => exact absurd first silent'.not_givenBy
  | file silent chosen stage used =>
    cases h' with
    | given first' _ => exact absurd first' silent.not_givenBy
    | file _ chosen' => rw [Option.some.inj (chosen.unique chosen')]
    | usual _ stage' absent' =>
      cases stage.unique stage'
      cases used.symm.trans absent'
  | usual silent stage absent _ =>
    cases h' with
    | given first' _ => exact absurd first' silent.not_givenBy
    | file _ _ stage' used' =>
      cases stage.unique stage'
      cases absent.symm.trans used'
    | usual => rfl

namespace Console

/-- What must hold of the variables and of the file for the overview to be right: a variable that
is set also gives a value, and the file has the same keys before its variables are put in as after
it, in sections that are no arrays. -/
structure Plain (files : Files) (env : Environment) : Prop where
  given : ∀ f ∈ settings, ∀ name ∈ f.variableNames, env.isSet name → ∃ text, env.Gives name text
  keys : ∀ {path text filled : String} {document : Toml.Entries},
    files.Chooses none (some path) → files.Holds path text →
    Interpolation.Filled env text (.ok filled) → Toml.parse? filled = some document →
    ∃ written, Toml.parse? text = some written ∧ ∀ f ∈ settings,
      written.contains [f.part, f.name] = document.contains [f.part, f.name]
  sections : ∀ {path text filled : String} {document : Toml.Entries},
    files.Chooses none (some path) → files.Holds path text →
    Interpolation.Filled env text (.ok filled) → Toml.parse? filled = some document →
    ∀ f ∈ settings, ∀ v, document.find? f.part = some v → v.isList = false

/-- A file that names no variables has the same keys as it is written. -/
theorem Plain.of_written {files : Files} {env : Environment} {path text : String}
    {document : Toml.Entries} (chosen : files.Chooses none (some path))
    (read : files.Holds path text) (same : Interpolation.Filled env text (.ok text))
    (parsed : Toml.parse? text = some document)
    (sections : ∀ f ∈ settings, ∀ v, document.find? f.part = some v → v.isList = false)
    (given : ∀ f ∈ settings, ∀ name ∈ f.variableNames, env.isSet name →
      ∃ text, env.Gives name text) : Plain files env where
  given := given
  keys chosen' read' done parsed' := by
    cases chosen.unique chosen'
    cases read.unique read'
    cases same.unique done
    exact ⟨_, parsed', fun _ _ => rfl⟩
  sections chosen' read' done parsed' := by
    cases chosen.unique chosen'
    cases read.unique read'
    cases same.unique done
    cases parsed.symm.trans parsed'
    exact sections

/-- The settings that the overview leaves out. -/
def unshown : List String :=
  ["app.name", "slack.bot_username", "slack.bot_icon_emoji", "slack.request_timeout_secs"]

theorem shownSettings_rows (s : Settings) :
    (shownSettings s).map (fun shown => (shown.key, shown.variableNames)) =
      (settings.filter fun f => f.key ∉ unshown).map fun f => (f.key, f.variableNames) := rfl

theorem exists_row {s : Settings} {shown : Shown} (h : shown ∈ shownSettings s) :
    ∃ f ∈ settings, f.key = shown.key ∧ f.variableNames = shown.variableNames := by
  have hmem := List.mem_map_of_mem (f := fun shown => (shown.key, shown.variableNames)) h
  rw [shownSettings_rows] at hmem
  obtain ⟨f, hf, heq⟩ := List.mem_map.mp hmem
  obtain ⟨hkey, hvariables⟩ := Prod.mk.inj heq
  exact ⟨f, (List.mem_filter.mp hf).1, hkey, hvariables⟩

theorem split_key : ∀ f ∈ settings,
    (List.splitOn '.' f.key.toList).map String.ofList = [f.part, f.name] := by
  decide +kernel

theorem isSet_of_gives {env : Environment} {name text : String} (h : env.Gives name text) :
    env.isSet name = true := by
  rw [Environment.isSet, h.1]
  rfl

variable {files : Files} {env : Environment} {s : Settings} {f : Setting} {shown : Shown}
  {source : Source}

/-- The overview goes by the first variable that is set, which is the first one that gives
something. -/
theorem find?_isSet (plain : Plain files env) (hf : f ∈ settings) {name : String} :
    f.variableNames.find? env.isSet = some name ↔ ∃ text, f.GivenBy env name text := by
  have hgives : ∀ other ∈ f.variableNames,
      env.isSet other = true ↔ ∃ text, env.Gives other text := fun other hother =>
    ⟨plain.given f hf other hother, fun ⟨_, h⟩ => isSet_of_gives h⟩
  rw [List.find?_eq_some_iff_append]
  constructor
  · rintro ⟨hset, before, after, hnames, hbefore⟩
    obtain ⟨text, hgiven⟩ := (hgives name (by simp [hnames])).mp hset
    refine ⟨text, hgiven, before, after, hnames, fun other hother text' h => ?_⟩
    simpa [isSet_of_gives h] using hbefore other hother
  · rintro ⟨text, hgiven, before, after, hnames, hbefore⟩
    refine ⟨isSet_of_gives hgiven, before, after, hnames, fun other hother => ?_⟩
    cases hset : env.isSet other with
    | false => rfl
    | true =>
      obtain ⟨text, h⟩ := (hgives other (by simp [hnames, hother])).mp hset
      exact absurd h (hbefore other hother text)

/-- Every setting that is loaded comes from somewhere. -/
theorem exists_comesFrom (hload : Settings.load files env .usual = .ok s) (hf : f ∈ settings) :
    ∃ source, f.ComesFrom files env s source := by
  obtain ⟨l, hstage, hmerges, -⟩ := Settings.load_eq_ok_iff.mp hload
  obtain ⟨given, hgiven, hvalue⟩ := hmerges f hf
  rw [show LoadOptions.usual.overrides = .empty from rfl, Layer.empty_eq f hf] at hvalue
  cases hgiven with
  | value given means =>
    refine ⟨_, .given given ?_⟩
    rw [hvalue]
    exact means
  | nothing silent =>
    cases hl : f.inLayer l with
    | none => exact ⟨_, .usual silent hstage hl (by rw [hvalue, hl]; rfl)⟩
    | some v =>
      have hused : f.inLayer l = some (f.inSettings s) := by
        rw [hvalue, hl]
        rfl
      cases hstage with
      | noFile _ _ nothing => cases (nothing f hf).symm.trans hl
      | decoded chosen read done parsed gives =>
        exact ⟨_, .file silent chosen (.decoded chosen read done parsed gives) hused⟩

/-- The overview finds a key in the file as it is written when the loader finds it there. -/
theorem writtenFile_contains (plain : Plain files env) (hf : f ∈ settings) {path : String}
    {l : Layer} (hchosen : files.Chooses none (some path))
    (hstage : FileStage files env .usual (.ok l)) :
    ∃ written, writtenFile files = some (path, written) ∧
      written.contains [f.part, f.name] = (f.inLayer l).isSome := by
  cases hstage with
  | noFile absent => cases hchosen.unique absent
  | decoded chosen read done parsed gives =>
    cases hchosen.unique chosen
    obtain ⟨written, hwritten, hkeys⟩ := plain.keys chosen read done parsed
    obtain ⟨entry, hentry, hsome⟩ :=
      Setting.given?_isSome (Setting.given?_eq_some_iff.mpr (gives f hf))
    have hlist := plain.sections chosen read done parsed f hf
    have hpath : files.settingsPath? none = some path := Files.chooses_iff.mp chosen
    refine ⟨written, ?_, ?_⟩
    · simp [writtenFile, hpath, Files.text?_eq_some_iff.mpr read, hwritten]
    · rw [hkeys f hf, Setting.entry?_isSome hentry hlist, hsome]

theorem sourceOf_eq (plain : Plain files env) (hf : f ∈ settings) (hkey : f.key = shown.key)
    (hnames : f.variableNames = shown.variableNames) (h : f.ComesFrom files env s source) :
    sourceOf env (writtenFile files) shown = source := by
  have hsilent (silent : f.Silent env) : f.variableNames.find? env.isSet = none := by
    rw [Option.eq_none_iff_forall_ne_some]
    intro name hfind
    obtain ⟨text, hgiven⟩ := (find?_isSet plain hf).mp hfind
    exact silent.not_givenBy hgiven
  unfold sourceOf
  rw [← hnames, ← hkey, split_key f hf]
  cases h with
  | given first _ =>
    rw [(find?_isSet plain hf).mpr ⟨_, first⟩]
  | file silent chosen stage used =>
    obtain ⟨written, hwritten, hcontains⟩ := writtenFile_contains plain hf chosen stage
    simp [hsilent silent, hwritten, hcontains, used]
  | usual silent stage absent _ =>
    cases hchosen : files.settingsPath? none with
    | none => simp [hsilent silent, writtenFile, hchosen]
    | some path =>
      obtain ⟨written, hwritten, hcontains⟩ :=
        writtenFile_contains plain hf (Files.chooses_iff.mpr hchosen) stage
      simp [hsilent silent, hwritten, hcontains, absent]

/-- When every variable that is set gives a value and the file has the same keys as it is written,
each line of the overview says where the loader took its setting from. -/
theorem overview_attribution (hload : Settings.load files env .usual = .ok s)
    (plain : Plain files env) :
    overview files env =
      "\n".intercalate ("effective config (source precedence: env > file > default):" ::
        (shownSettings s).map fun shown => shown.line (sourceOf env (writtenFile files) shown)) ∧
    ∀ shown ∈ shownSettings s, ∃ f ∈ settings, f.key = shown.key ∧
      ∀ source, sourceOf env (writtenFile files) shown = source ↔
        f.ComesFrom files env s source := by
  refine ⟨by simp only [overview, hload], fun shown hshown => ?_⟩
  obtain ⟨f, hf, hkey, hnames⟩ := exists_row hshown
  refine ⟨f, hf, hkey, fun source => ⟨?_, sourceOf_eq plain hf hkey hnames⟩⟩
  rintro rfl
  obtain ⟨source, hsource⟩ := exists_comesFrom hload hf
  rwa [sourceOf_eq plain hf hkey hnames hsource]

def portFile : String :=
  "[slack]\nclient_id = \"id\"\nclient_secret = \"secret\"\n[server]\nport = 9000\n"

def portFiles : Files := .only "rollbot.toml" portFile

def portVariable : Environment := .ofList [("ROLLBOT_SERVER_PORT", some "9001")]

theorem portFiles_plain : Plain portFiles portVariable := by
  have hsections : (Toml.parse? portFile).any fun document => settings.all fun f =>
      (document.find? f.part).all fun v => !v.isList := by decide +kernel
  obtain ⟨document, hparsed, hlist⟩ := (Option.any_eq_true ..).mp hsections
  have hsame : portVariable.interpolate portFile = .ok portFile := by decide +kernel
  have hgiven : ∀ f ∈ settings, ∀ name ∈ f.variableNames, portVariable.isSet name →
      (portVariable.given? name).isSome := by decide +kernel
  refine .of_written (.usual (Files.holds_only ..)) (Files.holds_only ..)
    (Interpolation.filled_iff.mp hsame) hparsed (fun f hf v hv => ?_) fun f hf name hname hset => ?_
  · simpa [hv] using List.all_eq_true.mp hlist f hf
  · obtain ⟨text, htext⟩ := Option.isSome_iff_exists.mp (hgiven f hf name hname hset)
    exact ⟨text, Environment.given?_eq_some_iff.mp htext⟩

theorem overview_attribution_port :
    Settings.load portFiles portVariable .usual =
      .ok { Settings.usual with clientId := "id", clientSecret := "secret", port := 9001 } ∧
    Plain portFiles portVariable ∧
    ∀ shown ∈ shownSettings { Settings.usual with
        clientId := "id", clientSecret := "secret", port := 9001 },
      ∃ f ∈ settings, f.key = shown.key ∧
        ∀ source, sourceOf portVariable (writtenFile portFiles) shown = source ↔
          f.ComesFrom portFiles portVariable { Settings.usual with
            clientId := "id", clientSecret := "secret", port := 9001 } source := by
  have hload : Settings.load portFiles portVariable .usual =
      .ok { Settings.usual with clientId := "id", clientSecret := "secret", port := 9001 } := by
    decide +kernel
  exact ⟨hload, portFiles_plain, (overview_attribution hload portFiles_plain).2⟩

def blankName : Environment :=
  .ofList [("ROLLBOT_SLACK_CLIENT_ID", some "id"), ("ROLLBOT_SLACK_CLIENT_SECRET", some "secret"),
    ("ROLLBOT_APP_NAME_FULL", some "")]

/-- A variable that is set to nothing gives no setting, and yet the overview names it. -/
theorem overview_attribution_blank :
    ¬∀ (files : Files) (env : Environment) (s : Settings),
      Settings.load files env .usual = .ok s → ∀ shown ∈ shownSettings s,
        ∃ f ∈ settings, f.key = shown.key ∧
          ∀ source, sourceOf env (writtenFile files) shown = source ↔
            f.ComesFrom files env s source := by
  intro h
  have hload : Settings.load ⟨fun _ => none⟩ blankName .usual =
      .ok { Settings.usual with clientId := "id", clientSecret := "secret" } := by decide +kernel
  obtain ⟨f, hf, hkey, hsource⟩ := h _ _ _ hload _ List.mem_cons_self
  have hnames : ∀ f ∈ settings, f.key = "app.name_full" →
      f.variableNames = ["ROLLBOT_APP_NAME_FULL"] := by decide +kernel
  have hsilent : f.firstGiven? blankName = none := by
    rw [Setting.firstGiven?, hnames f hf hkey]
    decide +kernel
  have hline : sourceOf blankName (writtenFile ⟨fun _ => none⟩)
      ⟨"app.name_full", Settings.usual.nameFull, ["ROLLBOT_APP_NAME_FULL"]⟩ =
        .variable "ROLLBOT_APP_NAME_FULL" := by decide +kernel
  cases (hsource _).mp hline with
  | given first => cases hsilent.symm.trans (Setting.firstGiven?_eq_some_iff.mpr first)

end Console
end DiceBot
