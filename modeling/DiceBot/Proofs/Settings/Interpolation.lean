import DiceBot.Proofs.Settings.Document
import DiceBot.Proofs.Toml.Braces
import DiceBot.Settings.File

/-!
Variables inside the settings file: which values arrive as they are in the setting that names them,
and what happens to the other ones.
-/

namespace DiceBot

namespace Interpolation

variable {env : Environment}

theorem map_append_append (x : Except SettingsError (List Char)) (a b : List Char) :
    (x.map (b ++ ·)).map (a ++ ·) = x.map ((a ++ b) ++ ·) := by
  cases x <;> simp [Except.map]

/-- A text is filled in part by part, if no part ends between a dollar sign and its brace. -/
theorem expand_append {place : Place} {a b a' : List Char} (h : expand env place a = .ok a')
    (hb : b.head? ≠ some '{') :
    expand env place (a ++ b) = (expand env .outside b).map (a' ++ ·) := by
  fun_induction expand env place a generalizing a' with
  | case1 =>
    cases h
    cases hrest : expand env .outside b <;> simp [hrest, Except.map]
  | case2 => cases h
  | case3 rest ih => exact ih h
  | case4 c rest hc ih =>
    cases hrest : expand env .outside rest with
    | error e => simp [hrest, Except.map] at h
    | ok rest' =>
      simp only [hrest, Except.map, Except.ok.injEq] at h
      subst h
      have hopen : ∀ rest', c = '$' → rest ++ b = '{' :: rest' → False := by
        intro rest' hdollar heq
        cases rest with
        | nil => exact hb (by rw [← List.nil_append b, heq]; rfl)
        | cons d rest => exact hc rest hdollar (by rw [(List.cons.inj heq).1])
      rw [List.cons_append, expand.eq_4 _ _ _ hopen, ih hrest]
      exact map_append_append _ [c] rest'
  | case5 reversedName rest hname => cases h
  | case6 reversedName rest name value hvalue =>
    rename_i ih
    change env.text? (String.ofList reversedName.reverse) = some value at hvalue
    cases hrest : expand env .outside rest with
    | error e => simp [hrest, Except.map] at h
    | ok rest' =>
      simp only [hrest, Except.map, Except.ok.injEq] at h
      subst h
      rw [List.cons_append, expand, if_pos rfl]
      simp only [hvalue, ih hrest]
      exact map_append_append _ value.toList rest'
  | case7 reversedName c rest hc ih =>
    rw [List.cons_append, expand, if_neg hc]
    exact ih h

/-- The characters of a name are kept until its brace closes. -/
theorem expand_inside (reversed : List Char) {name : List Char} (h : '}' ∉ name)
    (rest : List Char) : expand env (.inside reversed) (name ++ rest) =
      expand env (.inside (name.reverse ++ reversed)) rest := by
  induction name generalizing reversed with
  | nil => rfl
  | cons c name ih =>
    rw [List.mem_cons, not_or] at h
    rw [List.cons_append, expand, if_neg (Ne.symm h.1), ih _ h.2, List.reverse_cons,
      List.append_assoc]
    rfl

/-- A name in braces is put in as the value of its variable. -/
theorem expand_name {name value : String} {rest : List Char} (hclosed : '}' ∉ name.toList)
    (hvalue : env.text? name = some value) :
    expand env .outside ('$' :: '{' :: (name.toList ++ '}' :: rest)) =
      (expand env .outside rest).map (value.toList ++ ·) := by
  rw [expand, expand_inside [] hclosed, expand, if_pos rfl]
  simp [hvalue]

/-- A name in braces whose variable is not set ends the expansion. -/
theorem expand_name_unset {name : String} {rest : List Char} (hclosed : '}' ∉ name.toList)
    (hunset : env.text? name = none) :
    expand env .outside ('$' :: '{' :: (name.toList ++ '}' :: rest)) =
      .error (.missingVariable name) := by
  rw [expand, expand_inside [] hclosed, expand, if_pos rfl]
  simp [hunset]

/-- A brace that is not closed ends the expansion. -/
theorem expand_unclosed {rest : List Char} (h : '}' ∉ rest) :
    expand env .outside ('$' :: '{' :: rest) = .error .openInterpolation := by
  have hinside : expand env (.inside []) (rest ++ []) = _ := expand_inside [] h []
  rw [List.append_nil] at hinside
  rw [expand, hinside, expand]

theorem expand_quote (s : List Char) :
    expand env .outside ('"' :: s) = (expand env .outside s).map ('"' :: ·) := by
  rw [expand]
  simp

theorem expand_ne_missingFile {path : String} (place : Place) (text : List Char) :
    expand env place text ≠ .error (.missingFile path) := by
  fun_induction expand env place text with
  | case1 => simp
  | case2 => simp
  | case3 rest ih => exact ih
  | case4 c rest hc ih => cases h : expand env .outside rest <;> simp_all [Except.map]
  | case5 reversedName rest name hname => simp
  | case6 reversedName rest name value hvalue ih =>
    cases h : expand env .outside rest <;> simp_all [Except.map]
  | case7 reversedName c rest hc ih => exact ih

end Interpolation

theorem Environment.interpolate_ne_missingFile {env : Environment} {text path : String} :
    env.interpolate text ≠ .error (.missingFile path) := by
  have h : Interpolation.expand env .outside text.toList ≠ .error (.missingFile path) :=
    Interpolation.expand_ne_missingFile _ _
  unfold Environment.interpolate
  cases hexpand : Interpolation.expand env .outside text.toList with
  | ok _ => simp [Except.map]
  | error e => simpa [hexpand, Except.map] using h

open Interpolation (expand)
open Toml (isPlain textLine)

/-- A settings file that gives a setting as a string that is only the name of a variable. The text
before the string and the text after it are filled in from the variables as well. -/
structure VariableString (files : Files) (env : Environment) (path : String) (f : Setting)
    (variableName : String) where
  lead : List Char
  after : List Char
  text : files.text? path = some (String.ofList
    (lead ++ '"' :: '$' :: '{' :: (variableName.toList ++ '}' :: '"' :: after)))
  closed : '}' ∉ variableName.toList
  /-- A byte order mark may stand at the start. -/
  mark : List Char
  mark_eq : mark = [] ∨ mark = ['\uFEFF']
  before : List Char
  lead_filled : expand env .outside lead = .ok (mark ++ before)
  slot : Toml.Slot f.part f.name before
  filledAfter : List Char
  after_filled : expand env .outside after = .ok filledAfter
  ends : filledAfter.head? ≠ some '"'

namespace VariableString

variable {files : Files} {env : Environment} {path : String} {f : Setting} {name : String}

/-- The file with a string in the place of the variable's one. -/
def withText (place : VariableString files env path f name) (value : List Char) : String :=
  String.ofList (place.mark ++ (place.before ++ '"' :: (value ++ '"' :: place.filledAfter)))

/-- What the rest of the file gives, if it is valid. -/
def rest? (place : VariableString files env path f name) : Option Layer :=
  (Toml.parse? (place.withText [])).bind Layer.ofDocument?

theorem interpolate (place : VariableString files env path f name) {value : String}
    (hvalue : env.text? name = some value) :
    env.interpolate (String.ofList
      (place.lead ++ '"' :: '$' :: '{' :: (name.toList ++ '}' :: '"' :: place.after))) =
        .ok (place.withText value.toList) := by
  unfold Environment.interpolate
  rw [String.toList_ofList, Interpolation.expand_append place.lead_filled (by simp),
    Interpolation.expand_quote, Interpolation.expand_name place.closed hvalue,
    Interpolation.expand_quote, place.after_filled]
  simp [Except.map, withText]

end VariableString

/-- A value of characters that stand for themselves arrives unchanged in the setting that names its
variable, and changes no other setting. -/
theorem variable_arrives {files : Files} {env : Environment} {path : String} {f : Setting}
    {name : String} (place : VariableString files env path f name) (hf : f ∈ settings)
    (hstring : ∀ s, (f.ofFile? (.string s)).isSome) {value : String}
    (hvalue : env.text? name = some value) (hplain : ∀ c ∈ value.toList, isPlain c) {rest : Layer}
    (hrest : place.rest? = some rest) :
    ∃ l, Layer.ofFile files env path = .ok l ∧ f.inLayer l = f.ofFile? (.string value) ∧
      ∀ g ∈ settings, g.key ≠ f.key → g.inLayer l = g.inLayer rest := by
  obtain ⟨document, hparse, hdocument⟩ := Option.bind_eq_some_iff.mp hrest
  obtain ⟨document', hparse', hdiffer⟩ := place.slot.parse? place.mark_eq hplain place.ends hparse
  rw [String.ofList_toList] at hdiffer
  obtain ⟨hown, hothers⟩ := Setting.given?_of_differBelow hdiffer
  have hrows := Layer.ofDocument?_eq_some_iff.mp hdocument
  have hgiven : ∀ g ∈ settings, (g.given? document').isSome := by
    intro g hg
    by_cases hkey : g.key = f.key
    · rw [key_injective hg hf hkey, hown]
      simpa using hstring value
    · rw [hothers g hg hkey, hrows g hg]
      rfl
  obtain ⟨l, hl⟩ := Layer.exists_of_given? hgiven
  refine ⟨l, ?_, ?_, fun g hg hkey => ?_⟩
  · simp only [Layer.ofFile, place.text, place.interpolate hvalue, bind, Except.bind]
    have : (Toml.parse? (place.withText value.toList)).bind Layer.ofDocument? = some l :=
      Option.bind_eq_some_iff.mpr ⟨document', hparse', Layer.ofDocument?_eq_some_iff.mpr hl⟩
    rw [this]
  · obtain ⟨v, hv⟩ := Option.isSome_iff_exists.mp (hstring value)
    rw [hv, Option.map_some, hl f hf] at hown
    rw [hv]
    exact Option.some.inj hown
  · exact Option.some.inj ((hl g hg).symm.trans ((hothers g hg hkey).trans (hrows g hg)))

/-- A file that takes the client id from a variable. -/
def idFile : String :=
  "[database]\nurl = \"sqlite://bot.db\"\n[slack]\nclient_id = \"${BOT_ID}\"\n" ++
    "client_secret = \"secret\"\n"

def idFiles : Files := .only "rollbot.toml" idFile

/-- What the file gives with nothing in the place of the variable. -/
def idRest : Layer :=
  { Layer.empty with
    databaseUrl := some "sqlite://bot.db", clientId := some "", clientSecret := some "secret" }

def clientIdSetting : Setting :=
  .text "slack" "client_id" ["ROLLBOT_SLACK_CLIENT_ID"] Layer.clientId Settings.clientId

theorem clientIdSetting_mem : clientIdSetting ∈ settings := by
  simp [settings, clientIdSetting]

def idPlace (env : Environment) :
    VariableString idFiles env "rollbot.toml" clientIdSetting "BOT_ID" where
  lead := "[database]\nurl = \"sqlite://bot.db\"\n[slack]\nclient_id = ".toList
  after := "\nclient_secret = \"secret\"\n".toList
  text := (Files.text?_only ..).trans (congrArg some (by decide +kernel))
  closed := by decide
  mark := []
  mark_eq := .inl rfl
  before := [] ++ '[' :: ('d' :: "atabase".toList ++ [']', '\n']) ++
    textLine ('u' :: "rl".toList ++ [' ']) [' '] "sqlite://bot.db".toList ['\n'] ++
    '[' :: ('s' :: "lack".toList ++ [']', '\n']) ++
    ('c' :: "lient_id".toList ++ [' '] ++ '=' :: [' '])
  lead_filled := rfl
  slot := .line
    (((Toml.leads_nil.header (List.all_eq_true.mp (by decide)) rfl).entry
      (Toml.isKey_of_all (by decide)) (List.all_eq_true.mp (by decide))
      (List.all_eq_true.mp (by decide +kernel)) rfl).header (List.all_eq_true.mp (by decide)) rfl)
    (Toml.isKey_of_all (by decide)) (List.all_eq_true.mp (by decide)) (.inr ⟨rfl, rfl⟩)
    (fun _ h => by cases h; rfl)
  filledAfter := "\nclient_secret = \"secret\"\n".toList
  after_filled := rfl
  ends := by decide

/-- A file that takes the client id from a variable in a table in braces. -/
def bracesFile : String :=
  "slack = \x7bclient_secret = \"secret\", scopes = [\"bot\"], client_id = \"${BOT_ID}\"\x7d\n"

def bracesRest : Layer :=
  { Layer.empty with
    clientId := some "", clientSecret := some "secret", scopes := some ["bot"] }

def bracesPlace (env : Environment) :
    VariableString (.only "rollbot.toml" bracesFile) env "rollbot.toml" clientIdSetting
      "BOT_ID" where
  lead := "slack = \x7bclient_secret = \"secret\", scopes = [\"bot\"], client_id = ".toList
  after := "\x7d\n".toList
  text := (Files.text?_only ..).trans (congrArg some (by decide +kernel))
  closed := by decide
  mark := []
  mark_eq := .inl rfl
  before := [] ++ ('s' :: "lack".toList ++ [' '] ++ '=' :: ([' '] ++ '{' ::
    ([] ++ textLine ('c' :: "lient_secret".toList ++ [' ']) [' '] "secret".toList [',', ' '] ++
      ('s' :: "copes".toList ++ [' '] ++ '=' ::
        ([' '] ++ '[' :: '"' :: ("bot".toList ++ ['"', ']']) ++ [',', ' '])) ++
      ('c' :: "lient_id".toList ++ [' '] ++ '=' :: [' ']))))
  lead_filled := rfl
  slot := .braces Toml.leads_nil (Toml.isKey_of_all (by decide)) (List.all_eq_true.mp (by decide))
    (((Toml.leadsPairs_spaces (List.forall_mem_nil _)).entry
      (Toml.isKey_of_all (by decide)) (List.all_eq_true.mp (by decide))
      (List.all_eq_true.mp (by decide +kernel)) (List.all_eq_true.mp (by decide)) rfl).singleton
      (Toml.isKey_of_all (by decide)) (List.all_eq_true.mp (by decide))
      (List.all_eq_true.mp (by decide +kernel)) (List.all_eq_true.mp (by decide)) rfl)
    (Toml.isKey_of_all (by decide)) (List.all_eq_true.mp (by decide))
  filledAfter := "\x7d\n".toList
  after_filled := rfl
  ends := by decide

theorem variable_arrives_marks :
    (∃ l, Layer.ofFile idFiles (.ofList [("BOT_ID", some "a # b = 'c' ${d}")]) "rollbot.toml" =
        .ok l ∧
      clientIdSetting.inLayer l = clientIdSetting.ofFile? (.string "a # b = 'c' ${d}") ∧
      ∀ g ∈ settings, g.key ≠ clientIdSetting.key →
        g.inLayer l = g.inLayer idRest) ∧
    ∃ l, Layer.ofFile (.only "rollbot.toml" bracesFile)
        (.ofList [("BOT_ID", some "\x7d, \x7b = 'c' ]")]) "rollbot.toml" = .ok l ∧
      clientIdSetting.inLayer l = clientIdSetting.ofFile? (.string "\x7d, \x7b = 'c' ]") ∧
      ∀ g ∈ settings, g.key ≠ clientIdSetting.key →
        g.inLayer l = g.inLayer bracesRest :=
  ⟨variable_arrives (idPlace _) clientIdSetting_mem (fun _ => rfl) rfl
      (List.all_eq_true.mp (by decide +kernel)) (by decide +kernel),
    variable_arrives (bracesPlace _) clientIdSetting_mem (fun _ => rfl) rfl
      (List.all_eq_true.mp (by decide +kernel)) (by decide +kernel)⟩

/-- A value with a quote ends the string early, and its rest is read as further lines. -/
theorem variable_arrives_quote :
    ¬∀ (files : Files) (env : Environment) (path : String) (f : Setting) (name : String)
      (place : VariableString files env path f name) (value : String) (rest : Layer),
      f ∈ settings → (∀ s, (f.ofFile? (.string s)).isSome) → env.text? name = some value →
      place.rest? = some rest →
      ∃ l, Layer.ofFile files env path = .ok l ∧ f.inLayer l = f.ofFile? (.string value) ∧
        ∀ g ∈ settings, g.key ≠ f.key → g.inLayer l = g.inLayer rest := by
  intro h
  let value := "id\"\noauth_url = \"https://evil.example"
  let env : Environment := .ofList [("BOT_ID", some value)]
  obtain ⟨l, hl, hvalue, -⟩ := h idFiles env "rollbot.toml" clientIdSetting "BOT_ID" (idPlace env)
    value idRest clientIdSetting_mem (fun _ => rfl) rfl (by decide +kernel)
  have hread : Layer.ofFile idFiles env "rollbot.toml" = .ok { idRest with
      clientId := some "id", oauthUrl := some "https://evil.example" } := by
    decide +kernel
  cases hl.symm.trans hread
  have hsame : (some "id" : Option String) = some value := hvalue
  exact absurd hsame (by decide)

end DiceBot
