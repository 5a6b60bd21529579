/-!
What is asked of the dice: how many, of how many sides, with which modifier and hit threshold.
-/

namespace DiceBot.Roll

inductive Sign where
  | plus
  | minus
  deriving DecidableEq, Repr

def Sign.symbol : Sign → String
  | .plus => "+"
  | .minus => "-"

structure Modifier where
  sign : Sign
  amount : Nat
  deriving DecidableEq, Repr

def Modifier.apply (m : Modifier) (total : Int) : Int :=
  match m.sign with
  | .plus => total + m.amount
  | .minus => total - m.amount

structure Request where
  count : Nat
  sides : Nat
  modifier : Option Modifier
  threshold : Option Nat
  deriving DecidableEq, Repr

/-- One six-sided die. -/
def Request.single : Request := ⟨1, 6, none, none⟩

/-- The total of the faces after the modifier. -/
def Request.adjust (r : Request) (total : Int) : Int :=
  match r.modifier with
  | none => total
  | some m => m.apply total

end DiceBot.Roll
