import DiceBot.Roll.Message
import DiceBot.Roll.Notation

/-!
The answer to a roll command: a roll for the channel, or help, version or a rejection for the
caller alone.
-/

namespace DiceBot.Roll

inductive Reply where
  | rolled (text : String)
  | help (text : String)
  | version (text : String)
  | rejected (text : String)
  deriving DecidableEq, Repr

namespace Reply

def text : Reply → String
  | .rolled text | .help text | .version text | .rejected text => text

/-- A roll goes to the channel, everything else to the caller. -/
def isRoll : Reply → Bool
  | .rolled _ => true
  | _ => false

end Reply

/-- The names that help and version replies show. -/
structure About where
  appName : String
  version : String
  command : String
  deriving DecidableEq, Repr

namespace About

def versionText (a : About) : String := a.appName ++ " v" ++ a.version

/-- What may follow the command, each with what it does. -/
def examples (a : About) : List (String × String) :=
  [("", "Rolls a single 6-sided die"),
   (" d20", "Rolls a single 20-sided die"),
   (" 4d10", "Rolls 4 10-sided dice"),
   (" 1d6+3", "Rolls a single 6-sided die with a +3 modifier"),
   (" 10d6 hit", "Rolls 10 6-sided dice and counts each 5 or higher as a hit"),
   (" 10d10 hit7", "Rolls 10 10-sided dice and counts each 7 or higher as a hit"),
   (" help", "Shows this message"),
   (" version", "Shows the " ++ a.appName ++ " version")]

def helpText (a : About) : String :=
  "*" ++ a.appName ++ "* can roll anywhere from *1-" ++ toString Clause.mostDice ++
  " dice* with *" ++ toString Clause.fewestSides ++ "-" ++ toString Clause.mostSides ++
  " sides* each.\nHere are some examples:\n" ++
  String.join (a.examples.map fun (arguments, effect) =>
    "\n`" ++ a.command ++ arguments ++ "`\n\t" ++ effect ++ "\n") ++
  "\nWith `hit`, a die showing its highest face counts as two hits and a 1 counts as two misses.\n"

end About

/-- Answers a roll command. A blank text rolls one six-sided die, and only a roll draws dice. -/
def reply {σ : Type} (text user : String) (about : About) (dice : Dice σ) (s : σ) : Reply × σ :=
  match Command.parse (if Text.isAllBlank text then "d6" else text) with
  | .ok .help => (.help about.helpText, s)
  | .ok .version => (.version about.versionText, s)
  | .ok (.roll request) =>
    let (outcome, s) := request.evaluate dice s
    (.rolled (message request user outcome), s)
  | .error error => (.rejected error.message, s)

end DiceBot.Roll
