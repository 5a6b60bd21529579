import DiceBot.Roll.Dice
import DiceBot.Roll.Request

/-!
The outcome of a roll: the faces in drawing order, their adjusted total and the score against the
hit threshold.
-/

namespace DiceBot.Roll

/-- Hits and misses against a threshold. A critical one counts twice. -/
structure Score where
  hits : Nat
  criticalHits : Nat
  misses : Nat
  criticalMisses : Nat
  deriving DecidableEq, Repr

namespace Score

def zero : Score := ⟨0, 0, 0, 0⟩

/-- A face that reaches the threshold is a hit, the highest one a critical hit. Of the others a one
is a critical miss. -/
def mark (threshold sides : Nat) (s : Score) (face : Nat) : Score :=
  if face ≥ threshold then
    if face = sides then { s with hits := s.hits + 2, criticalHits := s.criticalHits + 1 }
    else { s with hits := s.hits + 1 }
  else if face = 1 then
    { s with misses := s.misses + 2, criticalMisses := s.criticalMisses + 1 }
  else { s with misses := s.misses + 1 }

def ofFaces (threshold sides : Nat) (faces : List Nat) : Score :=
  faces.foldl (mark threshold sides) zero

end Score

structure Outcome where
  faces : List Nat
  total : Int
  score : Score
  deriving DecidableEq, Repr

def Request.tally (r : Request) (faces : List Nat) : Outcome where
  faces := faces
  total := r.adjust (faces.foldl (· + ·) 0 : Nat)
  score := match r.threshold with
    | none => .zero
    | some threshold => .ofFaces threshold r.sides faces

def Request.evaluate {σ : Type} (r : Request) (dice : Dice σ) (s : σ) : Outcome × σ :=
  let (faces, s) := dice.draw r.sides r.count s
  (r.tally faces, s)

end DiceBot.Roll
