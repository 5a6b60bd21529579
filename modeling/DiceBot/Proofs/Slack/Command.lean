import DiceBot.Proofs.Settings.Layering
import DiceBot.Proofs.Text.Trim
import DiceBot.Slack.Command

/-!
The commands that settings list, and which of them the bot answers. It takes the blanks around a
command away before it looks for it, so a command that is listed with blanks may not be found.
-/

namespace DiceBot

/-- The parts of a list have no blanks around them. -/
theorem strip_of_mem_readList {value command : String} (h : command ∈ readList value) :
    Text.strip command = command := by
  obtain ⟨part, hpart, hcommand⟩ := List.mem_filterMap.mp h
  obtain ⟨piece, -, rfl⟩ := List.mem_map.mp hpart
  split at hcommand
  · cases hcommand
  · cases hcommand
    rw [Text.strip, String.toList_ofList, Text.trim_trim]

namespace Settings

theorem strip_of_mem_usual {command : String} (h : command ∈ usual.allowedCommands) :
    Text.strip command = command := by
  have hall : ∀ command ∈ usual.allowedCommands, Text.strip command = command := by
    decide +kernel
  exact hall command h

variable {s : Settings}

/-- Settings that keep the rules list only commands with a slash at their start. -/
theorem startsWith_of_check (h : s.check = .ok ()) {command : String}
    (hc : command ∈ s.allowedCommands) : Text.startsWith "/" command = true := by
  simp only [check, bind_eq_ok_iff] at h
  obtain ⟨_, -, _, -, _, -, _, hslashes, -⟩ := h
  unfold requireSlashes at hslashes
  split at hslashes
  case h_1 hnone => simpa using List.find?_eq_none.mp hnone command hc
  case h_2 => cases hslashes

/-- The list of commands is the one of the settings file. -/
def ListedInFile (files : Files) (env : Environment) (options : LoadOptions) (s : Settings) :
    Prop :=
  (∀ text, ¬ env.Gives "ROLLBOT_APP_ALLOWED_COMMANDS" text) ∧
    ∃ file, FileStage files env options (.ok file) ∧ file.allowedCommands = some s.allowedCommands

variable {files : Files} {env : Environment} {options : LoadOptions}

/-- The commands are those of the variable, else those of the file, else the usual ones. -/
theorem allowedCommands_of_load (h : load files env options = .ok s)
    (hoptions : options.overrides.allowedCommands = none) :
    (∃ value, s.allowedCommands = readList value) ∨ ListedInFile files env options s ∨
      s.allowedCommands = usual.allowedCommands := by
  obtain ⟨file, hstage, hmerges, -⟩ := load_eq_ok_iff.mp h
  obtain ⟨given, hgiven, hvalue⟩ := hmerges (.texts "app" "allowed_commands"
    ["ROLLBOT_APP_ALLOWED_COMMANDS"] Layer.allowedCommands allowedCommands) (by simp [settings])
  cases hgiven with
  | @value name text list given means =>
    obtain rfl : readList text = list := readList_iff.mpr means
    change s.allowedCommands = (options.overrides.allowedCommands <|> some (readList text) <|>
      file.allowedCommands).getD usual.allowedCommands at hvalue
    rw [hoptions] at hvalue
    exact .inl ⟨text, hvalue⟩
  | nothing silent =>
    have hvariable := silent _ List.mem_cons_self
    change s.allowedCommands = (options.overrides.allowedCommands <|> none <|>
      file.allowedCommands).getD usual.allowedCommands at hvalue
    rw [hoptions] at hvalue
    cases hfile : file.allowedCommands with
    | some list =>
      rw [hfile] at hvalue
      exact .inr (.inl ⟨hvariable, file, hstage, hfile.trans (congrArg some hvalue.symm)⟩)
    | none =>
      rw [hfile] at hvalue
      exact .inr (.inr hvalue)

/-- Only a list from a file has commands with blanks, and these stand behind them. -/
theorem padded_command (h : load files env options = .ok s)
    (hoptions : options.overrides.allowedCommands = none) {command : String}
    (hc : command ∈ s.allowedCommands) (hpadded : Text.strip command ≠ command) :
    ListedInFile files env options s ∧ ∃ blanks, blanks ≠ [] ∧ (∀ c ∈ blanks, Text.isBlank c) ∧
      command = Text.strip command ++ String.ofList blanks := by
  constructor
  · rcases allowedCommands_of_load h hoptions with ⟨value, hlist⟩ | hfile | husual
    · exact absurd (strip_of_mem_readList (hlist ▸ hc)) hpadded
    · exact hfile
    · exact absurd (strip_of_mem_usual (husual ▸ hc)) hpadded
  · obtain ⟨-, -, -, hcheck⟩ := load_eq_ok_iff.mp h
    obtain ⟨rest, hslash⟩ := List.isPrefixOf_iff_prefix.mp (startsWith_of_check hcheck hc)
    obtain ⟨left, blanks, hleft, hblanks, hsplit⟩ := Text.exists_padding command.toList
    obtain rfl : left = [] := by
      cases left with
      | nil => rfl
      | cons c left =>
        rw [← hslash] at hsplit
        obtain ⟨rfl, -⟩ := List.cons.inj hsplit
        cases hleft '/' List.mem_cons_self
    refine ⟨blanks, ?_, hblanks, ?_⟩
    · rintro rfl
      rw [List.nil_append, List.append_nil, ← Text.toList_strip] at hsplit
      exact hpadded (String.toList_injective hsplit.symm)
    · apply String.toList_injective
      rw [String.toList_append, Text.toList_strip, String.toList_ofList]
      exact hsplit

end Settings

namespace Slack.Payload

/-- A command of a team is answered exactly when it is allowed without its blanks; else it is told
to be unsupported. -/
theorem command?_of_team {p : Payload} {team : Team.Id} (h : Team.Id.parse p.teamId = .ok team)
    (allowed : List String) (requestId : String) :
    (Text.strip p.command ∈ allowed ∧ ∃ c, p.command? allowed requestId = .ok c) ∨
      (Text.strip p.command ∉ allowed ∧
        p.command? allowed requestId = .error (.unsupported p.command)) := by
  by_cases hc : Text.strip p.command ∈ allowed
  · exact .inl ⟨hc, by simp [command?, hc, h]⟩
  · exact .inr ⟨hc, by simp [command?, hc]⟩

/-- A command that loaded settings list is answered if it is also listed without its blanks. One
that is not answered is told to be unsupported, and has blanks behind it in a list from a file. -/
theorem listed_command {files : Files} {env : Environment} {options : LoadOptions} {s : Settings}
    (h : Settings.load files env options = .ok s)
    (hoptions : options.overrides.allowedCommands = none) {p : Payload}
    (hp : p.command ∈ s.allowedCommands) {team : Team.Id}
    (hteam : Team.Id.parse p.teamId = .ok team) (requestId : String) :
    ((∃ c, p.command? s.allowedCommands requestId = .ok c) ↔
      Text.strip p.command ∈ s.allowedCommands) ∧
    ((∃ c, p.command? s.allowedCommands requestId = .ok c) ∨
      p.command? s.allowedCommands requestId = .error (.unsupported p.command) ∧
        s.ListedInFile files env options ∧ ∃ blanks, blanks ≠ [] ∧
          (∀ c ∈ blanks, Text.isBlank c) ∧
          p.command = Text.strip p.command ++ String.ofList blanks) := by
  rcases command?_of_team hteam s.allowedCommands requestId with ⟨hc, hok⟩ | ⟨hc, herror⟩
  · exact ⟨⟨fun _ => hc, fun _ => hok⟩, .inl hok⟩
  · have hpadded : Text.strip p.command ≠ p.command := fun he => hc (by rwa [he])
    refine ⟨⟨?_, fun hstrip => absurd hstrip hc⟩,
      .inr ⟨herror, Settings.padded_command h hoptions hp hpadded⟩⟩
    rintro ⟨c, hok⟩
    cases hok.symm.trans herror

/-- A file that lists one command twice, once with a blank, and another one with a blank only. -/
def paddedFiles : Files :=
  .only "rollbot.toml" ("[app]\nallowed_commands = [\"/roll \", \"/roll\", \"/r \"]\n" ++
    "[slack]\nclient_id = \"id\"\nclient_secret = \"secret\"\n")

def paddedSettings : Settings :=
  { Settings.usual with
    allowedCommands := ["/roll ", "/roll", "/r "], clientId := "id", clientSecret := "secret" }

theorem load_paddedFiles :
    Settings.load paddedFiles (.ofList []) .usual = .ok paddedSettings := by
  decide +kernel

theorem listed_command_twice :
    Settings.load paddedFiles (.ofList []) .usual = .ok paddedSettings ∧
      "/roll " ∈ paddedSettings.allowedCommands ∧
      ∃ c, Payload.command? ⟨"/roll ", "", "T1", "", "", ""⟩ paddedSettings.allowedCommands "1" =
        .ok c :=
  ⟨load_paddedFiles, by decide, (listed_command (p := ⟨"/roll ", "", "T1", "", "", ""⟩)
    load_paddedFiles rfl (by decide) (show Team.Id.parse "T1" = .ok ⟨"T1"⟩ by decide +kernel)
    "1").1.mpr (by decide +kernel)⟩

/-- A command that is listed with a blank only is not answered, although the settings are loaded. -/
theorem listed_command_padded :
    ¬∀ (files : Files) (env : Environment) (options : LoadOptions) (s : Settings) (p : Payload)
      (team : Team.Id) (requestId : String),
      Settings.load files env options = .ok s → options.overrides.allowedCommands = none →
      p.command ∈ s.allowedCommands → Team.Id.parse p.teamId = .ok team →
      (∃ c, p.command? s.allowedCommands requestId = .ok c) ∧
        ∀ command, p.command? s.allowedCommands requestId ≠ .error (.unsupported command) := by
  intro h
  have hrefused : Payload.command? ⟨"/r ", "", "T1", "", "", ""⟩ paddedSettings.allowedCommands
      "1" = .error (.unsupported "/r ") := by
    decide +kernel
  exact (h paddedFiles (.ofList []) .usual paddedSettings ⟨"/r ", "", "T1", "", "", ""⟩ ⟨"T1"⟩ "1"
    load_paddedFiles rfl (by decide) (by decide +kernel)).2 "/r " hrefused

end Slack.Payload
end DiceBot
