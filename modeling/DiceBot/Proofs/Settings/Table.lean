import DiceBot.Proofs.Text.Run
import DiceBot.Proofs.Text.Trim
import DiceBot.Settings.File
import Mathlib.Data.List.Forall2
import Mathlib.Data.List.Nodup

/-!
The settings as a table: where each of them stands in a file, which variables give it, what is meant
by a value or a text there, and where it is kept. What holds of every setting is stated of the rows
of the table.
-/

namespace DiceBot

/-- The names of the log formats. -/
def LogFormat.Named (name : String) (format : LogFormat) : Prop :=
  (name, format) ∈ [("compact", LogFormat.compact), ("pretty", .pretty), ("json", .json)]

theorem LogFormat.ofName?_eq_some_iff {name : String} {format : LogFormat} :
    ofName? name = some format ↔ Named name format := by
  constructor
  · intro h
    obtain rfl : format.name = name := by simpa using List.find?_some h
    cases format <;> simp [Named, LogFormat.name]
  · intro h
    simp only [Named, List.mem_cons, List.not_mem_nil, or_false, Prod.mk.injEq] at h
    rcases h with ⟨rfl, rfl⟩ | ⟨rfl, rfl⟩ | ⟨rfl, rfl⟩ <;> rfl

namespace Layer

theorem text?_eq_some_iff {v : Toml.Value} {text : String} :
    text? v = some text ↔ v = .string text := by
  cases v <;> simp [text?]

theorem texts?_eq_some_iff {v : Toml.Value} {list : List String} :
    texts? v = some list ↔ v = .array (list.map .string) := by
  have hitems (items : List Toml.Value) :
      items.mapM text? = some list ↔ items = list.map .string := by
    induction items generalizing list with
    | nil => cases list <;> simp
    | cons item items ih =>
      cases list <;>
        simp [List.mapM_cons, Option.bind_eq_some_iff, text?_eq_some_iff, ih, and_comm]
  cases v <;> simp [texts?, hitems]

theorem natBelow?_eq_some_iff {bound n : Nat} {v : Toml.Value} :
    natBelow? bound v = some n ↔ v = .integer n ∧ n < bound := by
  cases v with
  | integer i =>
    cases i with
    | ofNat m =>
      simp only [natBelow?, Option.ite_none_right_eq_some, Option.some.injEq, Int.ofNat_eq_natCast,
        Toml.Value.integer.injEq, Int.natCast_inj]
      constructor
      · rintro ⟨hm, rfl⟩
        exact ⟨rfl, hm⟩
      · rintro ⟨rfl, hm⟩
        exact ⟨hm, rfl⟩
    | negSucc m => simp [natBelow?]
  | _ => simp [natBelow?]

theorem logFormat?_eq_some_iff {v : Toml.Value} {format : LogFormat} :
    logFormat? v = some format ↔ ∃ name, LogFormat.Named name format ∧
      (v = .string name ∨ ∃ origin origin', v = .table origin [(name, .table origin' [])]) := by
  simp only [← LogFormat.ofName?_eq_some_iff]
  unfold logFormat?
  split <;> grind

end Layer

/-- What stands between the commas of a text, each without the blanks around it, as far as there is
more than blanks. -/
def CommaList (text : String) (entries : List String) : Prop :=
  List.Forall₂ (fun part entry => Text.Trimmed part entry.toList)
    ((text.toList.splitOn ',').filter fun part => !part.all Text.isBlank) entries

theorem readList_iff {text : String} {entries : List String} :
    readList text = entries ↔ CommaList text entries := by
  have hparts (parts : List (List Char)) :
      (parts.map Text.trim).filterMap (fun entry =>
        if entry = [] then none else some (String.ofList entry)) =
      (parts.filter fun part => !part.all Text.isBlank).map fun part =>
        String.ofList (Text.trim part) := by
    induction parts with
    | nil => rfl
    | cons part parts ih =>
      by_cases hblank : Text.trim part = []
      · have hall := List.all_eq_true.mpr (Text.trim_eq_nil_iff.mp hblank)
        simp [hblank, hall, ih]
      · have hall : part.all Text.isBlank = false := by
          simpa [← Bool.not_eq_true, List.all_eq_true, ← Text.trim_eq_nil_iff] using hblank
        simp [hblank, hall, ih]
  have hentry (part : List Char) (entry : String) :
      Text.Trimmed part entry.toList ↔ String.ofList (Text.trim part) = entry := by
    rw [← Text.trim_eq_iff, ← String.toList_inj, String.toList_ofList]
  simp only [CommaList, hentry]
  rw [readList, hparts, ← List.forall₂_map_left_iff, List.forall₂_eq_eq_eq]

structure Setting where
  Value : Type
  /-- The section of the file that it stands in, and its name there. -/
  part : String
  name : String
  /-- The variables that may give it, of which the first one with a value counts. -/
  variableNames : List String
  ofFile? : Toml.Value → Option Value
  ofText? : String → Option Value
  /-- What is meant by a value in the file. -/
  Stands : Toml.Value → Value → Prop
  /-- What is meant by the text of a variable. -/
  Means : String → Value → Prop
  ofFile?_iff : ∀ {v : Toml.Value} {a : Value}, ofFile? v = some a ↔ Stands v a
  ofText?_iff : ∀ {text : String} {a : Value}, ofText? text = some a ↔ Means text a
  /-- The error for a variable whose text has no meaning. -/
  refusal : (name text : String) → SettingsError
  inLayer : Layer → Option Value
  inSettings : Settings → Value

namespace Setting

def key (f : Setting) : String := f.part ++ "." ++ f.name

def text (part name : String) (variableNames : List String) (inLayer : Layer → Option String)
    (inSettings : Settings → String) : Setting where
  Value := String
  part := part
  name := name
  variableNames := variableNames
  ofFile? := Layer.text?
  ofText? := some
  Stands v text := v = .string text
  Means text value := text = value
  ofFile?_iff := Layer.text?_eq_some_iff
  ofText?_iff := Option.some_inj
  refusal := .badVariable
  inLayer := inLayer
  inSettings := inSettings

def texts (part name : String) (variableNames : List String)
    (inLayer : Layer → Option (List String)) (inSettings : Settings → List String) : Setting where
  Value := List String
  part := part
  name := name
  variableNames := variableNames
  ofFile? := Layer.texts?
  ofText? text := some (readList text)
  Stands v list := v = .array (list.map .string)
  Means := CommaList
  ofFile?_iff := Layer.texts?_eq_some_iff
  ofText?_iff := Option.some_inj.trans readList_iff
  refusal := .badVariable
  inLayer := inLayer
  inSettings := inSettings

def number (bound : Nat) (part name : String) (variableNames : List String)
    (inLayer : Layer → Option Nat) (inSettings : Settings → Nat) : Setting where
  Value := Nat
  part := part
  name := name
  variableNames := variableNames
  ofFile? := Layer.natBelow? bound
  ofText? := Text.readNatBelow? bound
  Stands v n := v = .integer n ∧ n < bound
  Means text n := Text.Decimal text n ∧ n < bound
  ofFile?_iff := Layer.natBelow?_eq_some_iff
  ofText?_iff := Text.readNatBelow?_eq_some_iff
  refusal := .badVariable
  inLayer := inLayer
  inSettings := inSettings

/-- The one setting that may stay without a value. -/
def tokenKey : Setting where
  Value := Option String
  part := "database"
  name := "token_key"
  variableNames := ["ROLLBOT_DATABASE_TOKEN_KEY"]
  ofFile? v := (Layer.text? v).map some
  ofText? text := some (some text)
  Stands v key := ∃ text, v = .string text ∧ key = some text
  Means text key := key = some text
  ofFile?_iff := by
    simp only [Option.map_eq_some_iff, Layer.text?_eq_some_iff]
    exact exists_congr fun _ => and_congr_right fun _ => eq_comm
  ofText?_iff := by simp [eq_comm]
  refusal := .badVariable
  inLayer l := l.tokenKey.map some
  inSettings := Settings.tokenKey

def logFormat : Setting where
  Value := LogFormat
  part := "logging"
  name := "format"
  variableNames := ["ROLLBOT_LOGGING_FORMAT", "ROLLBOT_LOG_FORMAT"]
  ofFile? := Layer.logFormat?
  ofText? text := LogFormat.ofName? (Text.lower (Text.strip text))
  Stands v format := ∃ name, LogFormat.Named name format ∧
    (v = .string name ∨ ∃ origin origin', v = .table origin [(name, .table origin' [])])
  Means text := LogFormat.Named (Text.lower (Text.strip text))
  ofFile?_iff := Layer.logFormat?_eq_some_iff
  ofText?_iff := LogFormat.ofName?_eq_some_iff
  refusal _ text := .invalid (.logFormat (Text.lower (Text.strip text)))
  inLayer := Layer.logFormat
  inSettings := Settings.logFormat

end Setting

def settings : List Setting :=
  [.text "app" "name" [] Layer.name Settings.name,
   .text "app" "name_full" ["ROLLBOT_APP_NAME_FULL"] Layer.nameFull Settings.nameFull,
   .text "app" "base_url" ["ROLLBOT_APP_BASE_URL"] Layer.baseUrl Settings.baseUrl,
   .texts "app" "allowed_commands" ["ROLLBOT_APP_ALLOWED_COMMANDS"] Layer.allowedCommands
     Settings.allowedCommands,
   .text "database" "url" ["ROLLBOT_DATABASE_URL"] Layer.databaseUrl Settings.databaseUrl,
   .number Word.count32 "database" "max_connections" ["ROLLBOT_DATABASE_MAX_CONNECTIONS"]
     Layer.maxConnections Settings.maxConnections,
   .number Word.count64 "database" "timeout_secs" ["ROLLBOT_DATABASE_TIMEOUT_SECS"]
     Layer.databaseTimeout Settings.databaseTimeout,
   .tokenKey,
   .text "slack" "client_id" ["ROLLBOT_SLACK_CLIENT_ID"] Layer.clientId Settings.clientId,
   .text "slack" "client_secret" ["ROLLBOT_SLACK_CLIENT_SECRET"] Layer.clientSecret
     Settings.clientSecret,
   .text "slack" "oauth_url" ["ROLLBOT_SLACK_OAUTH_URL"] Layer.oauthUrl Settings.oauthUrl,
   .text "slack" "api_base_url" ["ROLLBOT_SLACK_API_BASE_URL"] Layer.apiBaseUrl
     Settings.apiBaseUrl,
   .texts "slack" "scopes" [] Layer.scopes Settings.scopes,
   .text "slack" "bot_username" [] Layer.botUsername Settings.botUsername,
   .text "slack" "bot_icon_emoji" [] Layer.botIcon Settings.botIcon,
   .number Word.count64 "slack" "state_max_age_secs" ["ROLLBOT_SLACK_STATE_MAX_AGE_SECS"]
     Layer.stateMaxAge Settings.stateMaxAge,
   .number Word.count64 "slack" "request_timeout_secs" [] Layer.requestTimeout
     Settings.requestTimeout,
   .text "server" "bind_address" ["ROLLBOT_SERVER_BIND_ADDRESS"] Layer.bindAddress
     Settings.bindAddress,
   .number Word.count16 "server" "port" ["ROLLBOT_SERVER_PORT"] Layer.port Settings.port,
   .number Word.count64 "server" "graceful_shutdown_secs"
     ["ROLLBOT_SERVER_GRACEFUL_SHUTDOWN_SECS"] Layer.shutdownTimeout Settings.shutdownTimeout,
   .text "logging" "level" ["ROLLBOT_LOGGING_LEVEL", "ROLLBOT_LOG_LEVEL"] Layer.logLevel
     Settings.logLevel,
   .logFormat]

/-- The names of the settings of a section, in the order of the table. -/
def sectionNames (part : String) : List String :=
  (settings.filter fun f => f.part = part).map Setting.name

/-- A key belongs to one setting. -/
theorem key_injective {f g : Setting} (hf : f ∈ settings) (hg : g ∈ settings)
    (h : f.key = g.key) : f = g :=
  List.inj_on_of_nodup_map (by decide +kernel) hf hg h

theorem Layer.empty_eq : ∀ f ∈ settings, f.inLayer .empty = none := by
  simp [settings, Setting.text, Setting.texts, Setting.number, Setting.tokenKey, Setting.logFormat,
    empty]

/-- A layer above another one wins for every setting that it gives. -/
theorem Layer.above_eq (upper lower : Layer) :
    ∀ f ∈ settings, f.inLayer (upper.above lower) = (f.inLayer upper <|> f.inLayer lower) := by
  simp [settings, Setting.text, Setting.texts, Setting.number, Setting.tokenKey, Setting.logFormat,
    above, Option.map_or]

theorem Layer.onto_eq (l : Layer) (s : Settings) :
    ∀ f ∈ settings, f.inSettings (l.onto s) = (f.inLayer l).getD (f.inSettings s) := by
  have htoken : l.tokenKey.or s.tokenKey = (l.tokenKey.map some).getD s.tokenKey := by
    cases l.tokenKey <;> rfl
  simp [settings, Setting.text, Setting.texts, Setting.number, Setting.tokenKey, Setting.logFormat,
    onto, htoken]

/-- Layers are the same when all rows of the table are. -/
theorem Layer.ext_table {l l' : Layer} (h : ∀ f ∈ settings, f.inLayer l = f.inLayer l') :
    l = l' := by
  have htoken (key key' : Option String) : key.map some = key'.map some ↔ key = key' :=
    Option.map_inj_right fun _ _ => Option.some.inj
  cases l
  cases l'
  simpa [settings, Setting.text, Setting.texts, Setting.number, Setting.tokenKey,
    Setting.logFormat, htoken] using h

/-- Settings are the same when all rows of the table are. -/
theorem Settings.ext_table {s s' : Settings}
    (h : ∀ f ∈ settings, f.inSettings s = f.inSettings s') : s = s' := by
  cases s
  cases s'
  simpa [settings, Setting.text, Setting.texts, Setting.number, Setting.tokenKey,
    Setting.logFormat] using h

end DiceBot
