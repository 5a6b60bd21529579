import DiceBot.Roll.Outcome

/-!
The message that tells a channel about a roll.
-/

namespace DiceBot.Roll

def criticalNote (criticals : Nat) : String :=
  if criticals = 0 then "" else " (" ++ toString criticals ++ " critical)"

/-- Hits and misses, each with its critical ones if there are any. -/
def Score.note (s : Score) : String :=
  "  with " ++ toString s.hits ++ (if s.hits = 1 then " hit" else " hits") ++
  criticalNote s.criticalHits ++ " and " ++
  toString s.misses ++ (if s.misses = 1 then " miss" else " misses") ++
  criticalNote s.criticalMisses

def Modifier.note (m : Modifier) : String := "  " ++ m.sign.symbol ++ " " ++ toString m.amount

/-- One line for the channel. The modifier and the score appear when they were asked for. -/
def message (r : Request) (user : String) (o : Outcome) : String :=
  "_" ++ user ++ " rolled " ++ toString r.count ++ " " ++ toString r.sides ++ "-sided " ++
  (if r.count = 1 then "die" else "dice") ++ ":_  *" ++ toString o.total ++ "*  ( " ++
  ",  ".intercalate (o.faces.map toString) ++ " )" ++
  (r.modifier.map Modifier.note).getD "" ++
  (if r.threshold.isSome then o.score.note else "")

end DiceBot.Roll
