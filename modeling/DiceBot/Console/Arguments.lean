import DiceBot.Console.Command
import DiceBot.Text.Split

/-!
The arguments of the console: which command they name, read strictly from left to right.
-/

namespace DiceBot.Console

/-- What the arguments ask for other than a command, or what is wrong with them. -/
inductive Refusal where
  | help
  | version
  | missingCommand
  | unexpected (argument : String)
  | missingValue (option : String)
  | repeated (option : String)
  deriving DecidableEq, Repr

/-- What an argument is, before its command looks at it. -/
inductive Argument where
  /-- Everything after it is plain. -/
  | divider
  /-- An option with a long name, and a value behind an equals sign. -/
  | long (name : String) (value : Option String)
  /-- The first of options with short names. -/
  | short (name : Char)
  | plain (text : String)
  deriving DecidableEq, Repr

def Argument.ofText (s : String) : Argument :=
  match s.toList with
  | ['-', '-'] => .divider
  | '-' :: '-' :: rest =>
    match Text.splitFirst '=' rest with
    | some (name, value) => .long (String.ofList name) (some (String.ofList value))
    | none => .long (String.ofList rest) none
  | '-' :: name :: _ => .short name
  | _ => .plain s

/-- Reads the arguments of a command that takes at most one flag. -/
def takeFlag (flag : Option String) : (given : Bool) → List String → Except Refusal Bool
  | given, [] => .ok given
  | given, argument :: rest =>
    match Argument.ofText argument with
    | .long "help" none | .short 'h' => .error .help
    | .long name none =>
      if flag = some name then
        if given then .error (.repeated argument) else takeFlag flag true rest
      else .error (.unexpected argument)
    | .divider => if rest = [] then .ok given else .error (.unexpected (rest.headD ""))
    | _ => .error (.unexpected argument)

structure RollArguments where
  words : List String
  user : Option String
  command : Option String
  deriving DecidableEq, Repr

/-- Sets one of the two options of a roll, which may be given once each. -/
def RollArguments.set (r : RollArguments) (name value : String) : Except Refusal RollArguments :=
  match name with
  | "user" => if r.user.isSome then .error (.repeated name) else .ok { r with user := some value }
  | "command" =>
    if r.command.isSome then .error (.repeated name) else .ok { r with command := some value }
  | _ => .error (.unexpected name)

def isRollOption (name : String) : Bool := name = "user" || name = "command"

/-- Reads the arguments of a roll: words and options in any order. -/
def takeRoll : RollArguments → List String → Except Refusal RollArguments
  | r, [] => .ok r
  | r, argument :: rest =>
    match Argument.ofText argument with
    | .plain word => takeRoll { r with words := r.words ++ [word] } rest
    | .divider => .ok { r with words := r.words ++ rest }
    | .long "help" none | .short 'h' => .error .help
    | .short _ => .error (.unexpected argument)
    | .long name (some value) =>
      match r.set name value with
      | .ok r => takeRoll r rest
      | .error refusal => .error refusal
    | .long name none =>
      if isRollOption name then
        match rest with
        | [] => .error (.missingValue name)
        | value :: rest =>
          match Argument.ofText value with
          | .plain value =>
            match r.set name value with
            | .ok r => takeRoll r rest
            | .error refusal => .error refusal
          | _ => .error (.missingValue name)
      else .error (.unexpected argument)

def commandNames : List String := ["migrate", "config", "doctor", "roll", "help"]

def helpFor : List String → Refusal
  | [] => .help
  | [name] => if commandNames.contains name then .help else .unexpected name
  | name :: extra :: _ => if commandNames.contains name then .unexpected extra else .unexpected name

def Command.ofArguments : List String → Except Refusal Command
  | [] => .error .missingCommand
  | argument :: rest =>
    match Argument.ofText argument with
    | .long "help" none | .short 'h' => .error .help
    | .long "version" none | .short 'V' => .error .version
    | .plain "migrate" => (takeFlag (some "undo") false rest).map .migrate
    | .plain "config" => (takeFlag none false rest).map fun _ => .config
    | .plain "doctor" => (takeFlag (some "json") false rest).map .doctor
    | .plain "roll" =>
      (takeRoll ⟨[], none, none⟩ rest).map fun r =>
        .roll (" ".intercalate r.words) (r.user.getD "you") (r.command.getD "/roll")
    | .plain "help" => .error (helpFor rest)
    | .divider => .error (rest.head?.elim .missingCommand .unexpected)
    | _ => .error (.unexpected argument)

def usage : String :=
  "Usage: rollbot <COMMAND>\n\nCommands:\n" ++
  "  migrate [--undo]   Apply pending database migrations, or revert the most recent one\n" ++
  "  config             Show the effective settings and where they come from\n" ++
  "  doctor [--json]    Check whether the bot is ready\n" ++
  "  roll [TEXT]... [--user <USER>] [--command <COMMAND>]\n" ++
  "                     Roll locally and print the reply Slack would see\n"

def Refusal.message : Refusal → String
  | .help => usage
  | .version => "rollbot " ++ Server.botVersion ++ "\n"
  | .missingCommand => usage
  | .unexpected argument => "error: unexpected argument `" ++ argument ++ "`\n\n" ++ usage
  | .missingValue option => "error: a value is required for `--" ++ option ++ "`\n\n" ++ usage
  | .repeated option => "error: `" ++ option ++ "` was given more than once\n\n" ++ usage

/-- What a run of the program prints, to both channels. -/
structure Printed where
  exitCode : Nat
  out : String
  err : String
  deriving DecidableEq, Repr

/-- Help and version are asked for; every other refusal is an error. -/
def Refusal.printed (r : Refusal) : Printed :=
  match r with
  | .help | .version => ⟨0, r.message, ""⟩
  | _ => ⟨2, "", r.message⟩

def program {δ : Type} (arguments : List String) (files : Files) (env : Environment)
    (dice : Roll.Dice δ) (disk : Database.Disk) (s : δ) : Printed × Database.Disk × δ :=
  match Command.ofArguments arguments with
  | .error refusal => (refusal.printed, disk, s)
  | .ok command =>
    let (outcome, disk, s) := command.run files env dice disk s
    (⟨outcome.exitCode, outcome.output ++ "\n", ""⟩, disk, s)

end DiceBot.Console
