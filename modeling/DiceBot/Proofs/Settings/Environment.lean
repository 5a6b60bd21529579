import DiceBot.Proofs.Outcome
import DiceBot.Proofs.Settings.Table

/-!
The settings that variables give: each of them on its own, up to the first one that cannot be read.
-/

namespace DiceBot

/-- A variable that holds text in which not everything is blank. -/
def Environment.Gives (env : Environment) (name text : String) : Prop :=
  env.value? name = some (some text) ∧ ∃ c ∈ text.toList, Text.isBlank c = false

theorem Environment.given?_eq_some_iff {env : Environment} {name text : String} :
    env.given? name = some text ↔ env.Gives name text := by
  simp [given?, text?, Gives, Option.filter_eq_some_iff, Option.join_eq_some_iff, Text.isAllBlank]

theorem Environment.given?_eq_none_iff {env : Environment} {name : String} :
    env.given? name = none ↔ ∀ text, ¬ env.Gives name text := by
  simp only [Option.eq_none_iff_forall_ne_some, ne_eq, given?_eq_some_iff]

namespace Setting

variable (f : Setting) (env : Environment)

/-- The first variable of a setting that gives something. -/
structure GivenBy (name text : String) : Prop where
  gives : env.Gives name text
  first : ∃ before after, f.variableNames = before ++ name :: after ∧
    ∀ other ∈ before, ∀ text, ¬ env.Gives other text

/-- No variable of a setting gives anything. -/
def Silent : Prop := ∀ name ∈ f.variableNames, ∀ text, ¬ env.Gives name text

/-- What the variables give for a setting: nothing, or what is meant by the first one. -/
inductive FromVariables : Option f.Value → Prop
  | nothing (silent : f.Silent env) : FromVariables none
  | value {name text : String} {a : f.Value} (given : f.GivenBy env name text)
    (means : f.Means text a) : FromVariables (some a)

/-- Nothing is meant by the first variable of a setting that gives something. -/
def Refused (e : SettingsError) : Prop :=
  ∃ name text, f.GivenBy env name text ∧ (∀ a, ¬ f.Means text a) ∧ e = f.refusal name text

/-- The first variable of a setting that has a value, with its text. -/
def firstGiven? : Option (String × String) :=
  f.variableNames.findSome? fun name => (env.given? name).map fun text => (name, text)

/-- What the variables give for a setting. -/
def ofVariables : Except SettingsError (Option f.Value) :=
  match f.firstGiven? env with
  | none => .ok none
  | some (name, text) =>
    match f.ofText? text with
    | some v => .ok (some v)
    | none => .error (f.refusal name text)

def refusal? : Option SettingsError :=
  match f.ofVariables env with
  | .ok _ => none
  | .error e => some e

variable {f env}

theorem firstGiven?_eq_some_iff {name text : String} :
    f.firstGiven? env = some (name, text) ↔ f.GivenBy env name text := by
  unfold firstGiven?
  rw [List.findSome?_eq_some_iff]
  simp only [Option.map_eq_some_iff, Option.map_eq_none_iff, Environment.given?_eq_some_iff,
    Environment.given?_eq_none_iff, Prod.mk.injEq]
  constructor
  · rintro ⟨before, _, after, hnames, ⟨_, hgives, rfl, rfl⟩, hbefore⟩
    exact ⟨hgives, before, after, hnames, hbefore⟩
  · rintro ⟨hgives, before, after, hnames, hbefore⟩
    exact ⟨before, name, after, hnames, ⟨text, hgives, rfl, rfl⟩, hbefore⟩

theorem firstGiven?_eq_none_iff : f.firstGiven? env = none ↔ f.Silent env := by
  simp only [firstGiven?, Silent, List.findSome?_eq_none_iff, Option.map_eq_none_iff,
    Environment.given?_eq_none_iff]

theorem GivenBy.unique {name name' text text' : String} (h : f.GivenBy env name text)
    (h' : f.GivenBy env name' text') : name = name' ∧ text = text' :=
  Prod.mk.inj (Option.some.inj
    ((firstGiven?_eq_some_iff.mpr h).symm.trans (firstGiven?_eq_some_iff.mpr h')))

theorem Silent.not_givenBy (h : f.Silent env) {name text : String} : ¬ f.GivenBy env name text := by
  intro h'
  cases (firstGiven?_eq_none_iff.mpr h).symm.trans (firstGiven?_eq_some_iff.mpr h')

theorem ofVariables_eq_ok_iff {given : Option f.Value} :
    f.ofVariables env = .ok given ↔ f.FromVariables env given := by
  unfold ofVariables
  constructor
  · intro h
    split at h
    case h_1 hsilent =>
      cases h
      exact .nothing (firstGiven?_eq_none_iff.mp hsilent)
    case h_2 hfirst =>
      split at h
      case h_1 hread =>
        cases h
        exact .value (firstGiven?_eq_some_iff.mp hfirst) (f.ofText?_iff.mp hread)
      case h_2 => cases h
  · intro h
    cases h with
    | nothing silent => rw [firstGiven?_eq_none_iff.mpr silent]
    | value given means =>
      rw [firstGiven?_eq_some_iff.mpr given]
      simp only [f.ofText?_iff.mpr means]

theorem ofVariables_eq_error_iff {e : SettingsError} :
    f.ofVariables env = .error e ↔ f.Refused env e := by
  unfold ofVariables Refused
  simp only [← firstGiven?_eq_some_iff, ← f.ofText?_iff, ← ne_eq,
    ← Option.eq_none_iff_forall_ne_some]
  constructor
  · intro h
    split at h
    case h_1 => cases h
    case h_2 name text hfirst =>
      split at h
      case h_1 => cases h
      case h_2 hread =>
        cases h
        exact ⟨name, text, hfirst, hread, rfl⟩
  · rintro ⟨name, text, hfirst, hread, rfl⟩
    simp only [hfirst, hread]

theorem refusal?_eq_some_iff {e : SettingsError} :
    f.refusal? env = some e ↔ f.Refused env e := by
  rw [← ofVariables_eq_error_iff, refusal?]
  cases f.ofVariables env <;> simp

end Setting

namespace Environment

/-- The first setting of the table whose variable is refused. -/
def Refused (env : Environment) (e : SettingsError) : Prop :=
  ∃ before f after, settings = before ++ f :: after ∧ f.Refused env e ∧
    ∀ g ∈ before, ∀ e', ¬ g.Refused env e'

/-- The error for the first setting of the table whose variable cannot be read. -/
def refusal? (env : Environment) : Option SettingsError := settings.findSome? (·.refusal? env)

theorem refusal?_eq_some_iff {env : Environment} {e : SettingsError} :
    env.refusal? = some e ↔ env.Refused e := by
  simp only [refusal?, List.findSome?_eq_some_iff, Refused, Setting.refusal?_eq_some_iff,
    Option.eq_none_iff_forall_ne_some, ne_eq]

/-- The value of the first variable that has one. -/
def first? (env : Environment) (names : List String) : Option String := names.findSome? env.given?

variable {env : Environment} {part name : String} {variableNames : List String}

theorem first?_nil : env.first? [] = none := rfl

theorem first?_cons (key : String) :
    env.first? (key :: variableNames) = (env.given? key <|> env.first? variableNames) := by
  cases h : env.given? key <;> simp [first?, h]

/-- A setting whose variables cannot fail has the first of their values. -/
theorem ofVariables_eq_ok {f : Setting} (read : String → f.Value)
    (h : ∀ text, f.ofText? text = some (read text)) :
    f.ofVariables env = .ok ((env.first? f.variableNames).map read) := by
  have hgiven : env.first? f.variableNames = (f.firstGiven? env).map Prod.snd := by
    unfold Setting.firstGiven?
    induction f.variableNames with
    | nil => rfl
    | cons key rest ih => cases h : env.given? key <;> simp [first?_cons, h, ih]
  rw [hgiven, Setting.ofVariables]
  cases f.firstGiven? env with
  | none => rfl
  | some given => simp [h]

theorem ofVariables_text {inLayer : Layer → Option String} {inSettings : Settings → String} :
    (Setting.text part name variableNames inLayer inSettings).ofVariables env =
      .ok (env.first? variableNames) := by
  rw [ofVariables_eq_ok (fun text => text) fun _ => rfl]
  exact congrArg Except.ok Option.map_id'

theorem ofVariables_texts {inLayer : Layer → Option (List String)}
    {inSettings : Settings → List String} :
    (Setting.texts part name variableNames inLayer inSettings).ofVariables env =
      .ok ((env.first? variableNames).map readList) :=
  ofVariables_eq_ok _ fun _ => rfl

theorem ofVariables_tokenKey :
    Setting.tokenKey.ofVariables env =
      .ok ((env.first? ["ROLLBOT_DATABASE_TOKEN_KEY"]).map some) :=
  ofVariables_eq_ok _ fun _ => rfl

theorem ofVariables_constant {bound : Nat} {inLayer : Layer → Option Nat}
    {inSettings : Settings → Nat} :
    (Setting.number bound part name [] inLayer inSettings).ofVariables env = .ok none :=
  rfl

theorem ofVariables_number {bound : Nat} {key : String} {inLayer : Layer → Option Nat}
    {inSettings : Settings → Nat} :
    (Setting.number bound part name [key] inLayer inSettings).ofVariables env =
      env.number? key bound := by
  cases hv : env.given? key with
  | none => simp [Setting.ofVariables, Setting.firstGiven?, Setting.number, number?, hv]
  | some text =>
    cases hn : Text.readNatBelow? bound text <;>
      simp [Setting.ofVariables, Setting.firstGiven?, Setting.number, number?, hv, hn]

theorem ofVariables_logFormat : Setting.logFormat.ofVariables env = env.logFormat? := by
  cases hv : env.given? "ROLLBOT_LOGGING_FORMAT" with
  | none =>
    cases hv' : env.given? "ROLLBOT_LOG_FORMAT" with
    | none =>
      simp [Setting.ofVariables, Setting.firstGiven?, Setting.logFormat, logFormat?, hv, hv']
    | some text =>
      cases hn : LogFormat.ofName? (Text.lower (Text.strip text)) <;>
        simp [Setting.ofVariables, Setting.firstGiven?, Setting.logFormat, logFormat?, hv, hv',
          LogFormat.read, hn, Except.map]
  | some text =>
    cases hn : LogFormat.ofName? (Text.lower (Text.strip text)) <;>
      simp [Setting.ofVariables, Setting.firstGiven?, Setting.logFormat, logFormat?, hv,
        LogFormat.read, hn, Except.map]

/-- What the variables give when all of them can be read. -/
theorem ofVariables_of_layer {l : Layer} (h : env.layer = .ok l) :
    ∀ f ∈ settings, f.ofVariables env = .ok (f.inLayer l) := by
  simp only [layer, bind_eq_ok_iff] at h
  repeat obtain ⟨_, _, h⟩ := h
  simp only [settings, List.forall_mem_cons, ofVariables_text, ofVariables_texts,
    ofVariables_tokenKey, ofVariables_constant, ofVariables_number, ofVariables_logFormat,
    first?_cons, first?_nil]
  simp [Setting.text, Setting.texts, Setting.number, Setting.tokenKey, Setting.logFormat,
    Layer.empty, *]

/-- The variables give a layer, or fail for the first setting of the table that cannot be read from
its own. -/
theorem layer_eq_error_iff {e : SettingsError} :
    env.layer = .error e ↔ env.refusal? = some e := by
  simp only [refusal?, settings, List.findSome?_cons, List.findSome?_nil, Setting.refusal?,
    ofVariables_text, ofVariables_texts, ofVariables_tokenKey, ofVariables_constant,
    ofVariables_number, ofVariables_logFormat, layer]
  cases env.number? "ROLLBOT_DATABASE_MAX_CONNECTIONS" Word.count32 with
  | error e => simp [bind, Except.bind]
  | ok _ =>
  cases env.number? "ROLLBOT_DATABASE_TIMEOUT_SECS" Word.count64 with
  | error e => simp [bind, Except.bind]
  | ok _ =>
  cases env.number? "ROLLBOT_SLACK_STATE_MAX_AGE_SECS" Word.count64 with
  | error e => simp [bind, Except.bind]
  | ok _ =>
  cases env.number? "ROLLBOT_SERVER_PORT" Word.count16 with
  | error e => simp [bind, Except.bind]
  | ok _ =>
  cases env.number? "ROLLBOT_SERVER_GRACEFUL_SHUTDOWN_SECS" Word.count64 with
  | error e => simp [bind, Except.bind]
  | ok _ => cases env.logFormat? <;> simp [bind, Except.bind, pure, Except.pure]

/-- The variables give a layer if every setting can be read from its own variables, and the layer
then has what they give. -/
theorem layer_eq_ok_iff {l : Layer} :
    env.layer = .ok l ↔ ∀ f ∈ settings, f.ofVariables env = .ok (f.inLayer l) := by
  refine ⟨ofVariables_of_layer, fun h => ?_⟩
  cases hl : env.layer with
  | error e =>
    have hnone : env.refusal? = none := by
      refine List.findSome?_eq_none_iff.mpr fun f hf => ?_
      simp [Setting.refusal?, h f hf]
    simp [layer_eq_error_iff.mp hl] at hnone
  | ok l' =>
    have hrows := fun f hf => Except.ok.inj ((ofVariables_of_layer hl f hf).symm.trans (h f hf))
    rw [Layer.ext_table hrows]

end Environment
end DiceBot
