import DiceBot.Proofs.Outcome
import DiceBot.Proofs.Settings.Interpolation
import DiceBot.Settings.Load

/-!
Environments that differ in nothing but secrets of the same length: loading settings fails alike in
both, or gives settings that differ in the same way.
-/

namespace DiceBot

/-- The variables whose values are secrets. -/
def secretVariables : List String := ["ROLLBOT_SLACK_CLIENT_SECRET", "ROLLBOT_DATABASE_TOKEN_KEY"]

/-- Two secrets that are no blanks and have as many bytes as each other, without blanks around. -/
structure SameLength (secret secret' : String) : Prop where
  left : Text.isAllBlank secret = false
  right : Text.isAllBlank secret' = false
  size : (Text.strip secret).utf8ByteSize = (Text.strip secret').utf8ByteSize

/-- The same environment, but for the values of the secrets. -/
structure Environment.Alike (env env' : Environment) : Prop where
  others : ∀ name ∉ secretVariables, env.value? name = env'.value? name
  secrets : ∀ name ∈ secretVariables, ∃ secret secret', env.value? name = some (some secret) ∧
    env'.value? name = some (some secret') ∧ SameLength secret secret'

/-- The same settings, but for the secrets, which both have. -/
structure Settings.Alike (s s' : Settings) : Prop where
  others : s' = { s with clientSecret := s'.clientSecret, tokenKey := s'.tokenKey }
  clientSecret : SameLength s.clientSecret s'.clientSecret
  tokenKey : ∃ key key', s.tokenKey = some key ∧ s'.tokenKey = some key' ∧ SameLength key key'

namespace Interpolation

/-- The names in braces that a text has. -/
def names : Place → List Char → List String
  | _, [] => []
  | .outside, '$' :: '{' :: rest => names (.inside []) rest
  | .outside, _ :: rest => names .outside rest
  | .inside reversedName, c :: rest =>
    if c = '}' then String.ofList reversedName.reverse :: names .outside rest
    else names (.inside (c :: reversedName)) rest

/-- A text is filled in from the variables that it names, and from no others. -/
theorem expand_congr {env env' : Environment} (place : Place) (text : List Char)
    (h : ∀ name ∈ names place text, env.text? name = env'.text? name) :
    expand env place text = expand env' place text := by
  fun_induction expand env place text with
  | case1 => rfl
  | case2 => rfl
  | case3 rest ih => exact ih h
  | case4 c rest hc ih =>
    rw [names.eq_3 _ _ hc] at h
    rw [expand.eq_4 _ _ _ hc, ih h]
  | case5 reversedName rest name hname =>
    have hsame : env'.text? (String.ofList reversedName.reverse) = none :=
      (h name (by simp [names, name])).symm.trans hname
    simp [expand, hsame, name]
  | case6 reversedName rest name value hvalue ih =>
    have hsame : env'.text? (String.ofList reversedName.reverse) = some value :=
      (h name (by simp [names, name])).symm.trans hvalue
    simp [expand, hsame, ih fun n hn => h n (by simp [names, hn])]
  | case7 reversedName c rest hc ih =>
    rw [names, if_neg hc] at h
    rw [expand, if_neg hc, ih h]

end Interpolation

/-- The settings file, if there is one, takes nothing from the variables that hold secrets. -/
def Files.NamesNoSecret (files : Files) : Prop :=
  ∀ {path text : String}, files.settingsPath? none = some path → files.text? path = some text →
    ∀ name ∈ Interpolation.names .outside text.toList, name ∉ secretVariables

namespace Environment.Alike

variable {env env' : Environment} {name : String}

theorem isSet_eq (h : env.Alike env') : env.isSet = env'.isSet := by
  funext name
  by_cases hname : name ∈ secretVariables
  · obtain ⟨secret, secret', hs, hs', -⟩ := h.secrets name hname
    simp [isSet, hs, hs']
  · rw [isSet, isSet, h.others name hname]

theorem text?_eq (h : env.Alike env') (hname : name ∉ secretVariables) :
    env.text? name = env'.text? name :=
  congrArg Option.join (h.others name hname)

theorem given?_eq (h : env.Alike env') (hname : name ∉ secretVariables) :
    env.given? name = env'.given? name := by
  rw [given?, given?, h.text?_eq hname]

theorem given?_secret (h : env.Alike env') (hname : name ∈ secretVariables) :
    ∃ secret secret', env.given? name = some secret ∧ env'.given? name = some secret' ∧
      SameLength secret secret' := by
  obtain ⟨secret, secret', hs, hs', hlength⟩ := h.secrets name hname
  refine ⟨secret, secret', ?_, ?_, hlength⟩
  · simp [given?, text?, hs, hlength.left]
  · simp [given?, text?, hs', hlength.right]

theorem number?_eq (h : env.Alike env') (hname : name ∉ secretVariables) (bound : Nat) :
    env.number? name bound = env'.number? name bound := by
  rw [number?, number?, h.given?_eq hname]

theorem interpolate_eq (h : env.Alike env') {text : String}
    (hnames : ∀ name ∈ Interpolation.names .outside text.toList, name ∉ secretVariables) :
    env.interpolate text = env'.interpolate text :=
  congrArg (Except.map String.ofList)
    (Interpolation.expand_congr _ _ fun name hname => h.text?_eq (hnames name hname))

theorem fileLayer_eq (h : env.Alike env') {files : Files} (hfiles : files.NamesNoSecret) :
    Settings.fileLayer files env .usual = Settings.fileLayer files env' .usual := by
  unfold Settings.fileLayer
  cases hchosen : files.settingsPath? LoadOptions.usual.path with
  | none => rfl
  | some path =>
    simp only [Layer.ofFile]
    cases hread : files.text? path with
    | none => rfl
    | some text => simp only [h.interpolate_eq (hfiles hchosen hread)]

end Environment.Alike

/-- The same layer, but for the secrets, which both have. -/
structure Layer.Alike (l l' : Layer) : Prop where
  others : l' = { l with clientSecret := l'.clientSecret, tokenKey := l'.tokenKey }
  clientSecret : ∃ secret secret', l.clientSecret = some secret ∧ l'.clientSecret = some secret' ∧
    SameLength secret secret'
  tokenKey : ∃ key key', l.tokenKey = some key ∧ l'.tokenKey = some key' ∧ SameLength key key'

/-- Every number and the log format is read alike, and what comes after them cannot fail. -/
theorem Environment.Alike.layer {env env' : Environment} (h : env.Alike env') :
    SameOutcome Layer.Alike env.layer env'.layer := by
  unfold Environment.layer logFormat?
  simp (disch := decide) only [h.number?_eq, h.given?_eq]
  -- five numbers and the log format
  iterate 6
    refine (SameOutcome.refl _).bind fun _ _ heq => ?_
    subst heq
  exact .ok ⟨rfl, h.given?_secret (by decide), h.given?_secret (by decide)⟩

namespace Settings

variable {s s' : Settings}

theorem Alike.databaseUrl (h : s.Alike s') : s.databaseUrl = s'.databaseUrl := by
  rw [h.others]

theorem Alike.nameFull (h : s.Alike s') : s.nameFull = s'.nameFull := by
  rw [h.others]

theorem Alike.check_eq (h : s.Alike s') : s.check = s'.check := by
  obtain ⟨key, key', hkey, hkey', hlength⟩ := h.tokenKey
  rw [h.others]
  simp only [check, hkey, hkey', Option.any_some, hlength.left, hlength.right,
    h.clientSecret.left, h.clientSecret.right]

theorem Alike.checked (h : s.Alike s') : SameOutcome Alike s.checked s'.checked := by
  unfold Settings.checked
  rw [h.check_eq]
  cases s'.check with
  | error problem => exact .error _
  | ok _ => exact .ok h

theorem alike_onto {l l' : Layer} (h : l.Alike l') (file : Layer) :
    ((LoadOptions.usual.overrides.above (l.above file)).onto usual).Alike
      ((LoadOptions.usual.overrides.above (l'.above file)).onto usual) := by
  obtain ⟨secret, secret', hs, hs', hsecret⟩ := h.clientSecret
  obtain ⟨key, key', hk, hk', hkey⟩ := h.tokenKey
  have hothers := h.others
  rw [hs', hk'] at hothers
  subst hothers
  exact ⟨rfl, by simpa [Layer.onto, Layer.above, LoadOptions.usual, Layer.empty, hs] using hsecret,
    key, key', by simp [Layer.onto, Layer.above, LoadOptions.usual, Layer.empty, hk], rfl, hkey⟩

/-- Loading settings fails with the same error, or gives settings that differ in secrets only. -/
theorem load_alike {env env' : Environment} {files : Files} (h : env.Alike env')
    (hfiles : files.NamesNoSecret) :
    SameOutcome Alike (load files env .usual) (load files env' .usual) := by
  unfold load
  rw [h.fileLayer_eq hfiles]
  refine (SameOutcome.refl _).bind fun file file' heq => ?_
  subst heq
  exact h.layer.bind fun l l' hl => (alike_onto hl file).checked

end Settings
end DiceBot
