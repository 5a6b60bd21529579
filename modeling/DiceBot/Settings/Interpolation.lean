import DiceBot.Settings.Environment

/-!
Environment variables inside a file: a dollar sign and a name in braces stand for the value of the
variable. A value is put in as it is and not looked at again.
-/

namespace DiceBot.Interpolation

/-- A text is read from left to right, outside a name or inside one, whose characters so far are
kept in reverse. -/
inductive Place where
  | outside
  | inside (reversedName : List Char)

def expand (env : Environment) : Place → List Char → Except SettingsError (List Char)
  | .outside, [] => .ok []
  | .inside _, [] => .error .openInterpolation
  | .outside, '$' :: '{' :: rest => expand env (.inside []) rest
  | .outside, c :: rest => (expand env .outside rest).map (c :: ·)
  | .inside reversedName, c :: rest =>
    if c = '}' then
      let name := String.ofList reversedName.reverse
      match env.text? name with
      | none => .error (.missingVariable name)
      | some value => (expand env .outside rest).map (value.toList ++ ·)
    else expand env (.inside (c :: reversedName)) rest

end DiceBot.Interpolation

namespace DiceBot

def Environment.interpolate (env : Environment) (text : String) : Except SettingsError String :=
  (Interpolation.expand env .outside text.toList).map String.ofList

end DiceBot
