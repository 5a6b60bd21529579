import DiceBot.Roll.Request
import DiceBot.Text.Blank
import DiceBot.Text.Numeral

/-!
Dice notation: `[count]d<sides>[(+|-)<amount>][ hit[<threshold>]]`, or one of two keywords.
A group that does not match is absent, and whatever follows the last group is ignored.
-/

namespace DiceBot.Roll

inductive Command where
  | roll (request : Request)
  | help
  | version
  deriving DecidableEq, Repr

inductive NotationError where
  /-- No dice were found at the start of the text. -/
  | unrecognized (text : String)
  /-- No face of the die could reach the threshold. -/
  | unreachable (threshold sides : Nat)
  deriving DecidableEq, Repr

def NotationError.message : NotationError → String
  | .unrecognized text => "'" ++ text ++ "' is not a recognized roll format"
  | .unreachable threshold sides =>
    "hit threshold " ++ toString threshold ++ " is larger than a " ++ toString sides ++ "-sided die"

/-- The digits of each group as they were written. The count may be the empty run, the sides may
not. `hit` is present when the word is, its digits may be the empty run. -/
structure Clause where
  count : List Char
  sides : List Char
  modifier : Option (Sign × List Char)
  hit : Option (List Char)
  deriving DecidableEq, Repr

namespace Clause

def takeModifier (s : List Char) : Option (Sign × List Char) × List Char :=
  let signed (sign : Sign) (rest : List Char) :=
    let digits := rest.takeWhile Char.isDigit
    if digits = [] then (none, s) else (some (sign, digits), rest.dropWhile Char.isDigit)
  match s with
  | '+' :: rest => signed .plus rest
  | '-' :: rest => signed .minus rest
  | _ => (none, s)

/-- Spaces, the word `hit` and the digits after it at the start of the text. -/
def takeHit (s : List Char) : Option (List Char) × List Char :=
  match s with
  | ' ' :: rest =>
    match rest.dropWhile (· = ' ') with
    | 'h' :: 'i' :: 't' :: rest =>
      (some (rest.takeWhile Char.isDigit), rest.dropWhile Char.isDigit)
    | _ => (none, s)
  | _ => (none, s)

def take? (s : List Char) : Option (Clause × List Char) :=
  match s.dropWhile Char.isDigit with
  | 'd' :: rest =>
    let sides := rest.takeWhile Char.isDigit
    if sides = [] then none
    else
      let (modifier, rest) := takeModifier (rest.dropWhile Char.isDigit)
      let (hit, rest) := takeHit rest
      some (⟨s.takeWhile Char.isDigit, sides, modifier, hit⟩, rest)
  | _ => none

def mostDice : Nat := 100
def fewestSides : Nat := 2
def mostSides : Nat := 100
def largestAmount : Nat := 100
def largestThreshold : Nat := 100
def usualThreshold : Nat := 5

def clamp (low high n : Nat) : Nat := max low (min high n)

/-- The request that a clause stands for: every number is moved into its range. -/
def request (c : Clause) : Request where
  count := if c.count = [] then 1 else clamp 1 mostDice (Text.saturatingNumeral c.count)
  sides := clamp fewestSides mostSides (Text.saturatingNumeral c.sides)
  modifier := c.modifier.map fun (sign, digits) =>
    ⟨sign, min (Text.saturatingNumeral digits) largestAmount⟩
  threshold := c.hit.map fun digits =>
    if digits = [] then usualThreshold else min (Text.saturatingNumeral digits) largestThreshold

end Clause

/-- A request whose threshold some face of its dice reaches. -/
def Request.checked (r : Request) : Except NotationError Request :=
  match r.threshold with
  | none => .ok r
  | some t => if t > r.sides then .error (.unreachable t r.sides) else .ok r

/-- Reads dice notation, in either case and with blanks around it. -/
def Command.parse (text : String) : Except NotationError Command :=
  let written := Text.trim text.toList
  let folded := written.map Char.toLower
  if folded = ['h', 'e', 'l', 'p'] then .ok .help
  else if folded = ['v', 'e', 'r', 's', 'i', 'o', 'n'] then .ok .version
  else match Clause.take? folded with
    | none => .error (.unrecognized (String.ofList written))
    | some (clause, _) => clause.request.checked.map .roll

end DiceBot.Roll
