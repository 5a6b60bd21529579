import DiceBot.Settings.File
import DiceBot.Settings.Validation

/-!
Loading the settings: the usual ones, under the file, under the environment, under what the caller
asks for.
-/

namespace DiceBot

/-- Which file to read, whether it has to be there, and a layer above all others. -/
structure LoadOptions where
  path : Option String
  required : Bool
  overrides : Layer

def LoadOptions.usual : LoadOptions := ⟨none, false, .empty⟩

namespace Settings

def fileLayer (files : Files) (env : Environment) (options : LoadOptions) :
    Except SettingsError Layer :=
  match files.settingsPath? options.path with
  | some path => Layer.ofFile files env path
  | none =>
    if options.required then .error (.missingFile (options.path.getD "rollbot.toml"))
    else .ok .empty

def checked (s : Settings) : Except SettingsError Settings :=
  match s.check with
  | .ok () => .ok s
  | .error problem => .error (.invalid problem)

def load (files : Files) (env : Environment) (options : LoadOptions) :
    Except SettingsError Settings := do
  let file ← fileLayer files env options
  let environment ← env.layer
  ((options.overrides.above (environment.above file)).onto usual).checked

end Settings
end DiceBot
