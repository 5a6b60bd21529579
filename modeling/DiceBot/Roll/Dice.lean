import DiceBot.Word

/-!
Dice: sources of faces, and the fair choice of a face from uniform words of 32 bits.
-/

namespace DiceBot.Roll

/-- A source of faces: given the number of sides, the next face and the state after it. -/
structure Dice (σ : Type) where
  next : (sides : Nat) → σ → Nat × σ

namespace Dice

/-- The faces of `count` dice in drawing order. -/
def draw {σ : Type} (dice : Dice σ) (sides : Nat) : (count : Nat) → σ → List Nat × σ
  | 0, s => ([], s)
  | count + 1, s =>
    let (face, s) := dice.next sides s
    let (faces, s) := dice.draw sides count s
    (face :: faces, s)

/-- Dice that show the given faces again and again, and ones if there are none. The state counts
the dice drawn. -/
def cycling (faces : Array Nat) : Dice Nat where
  next _ drawn := (faces.getD (drawn % faces.size) 1, drawn + 1)

end Dice

/-- The largest remainder that a word may leave so that each face has equally many words. -/
def acceptedUpTo (sides : Nat) : Nat := (sides <<< (31 - sides.log2)) - 1

/-- The face that a word stands for, if it is accepted: the high half of its product with the
number of sides, counted from one. -/
def faceOfWord? (sides : Nat) (word : UInt32) : Option Nat :=
  let product := word.toNat * sides
  if product % Word.count32 ≤ acceptedUpTo sides then some (1 + product / Word.count32) else none

/-- The face of the first accepted word, and the words after it. A die has at least one side. -/
def drawFace? (sides : Nat) : List UInt32 → Option (Nat × List UInt32)
  | [] => none
  | word :: words =>
    match faceOfWord? (max sides 1) word with
    | some face => some (face, words)
    | none => drawFace? sides words

/-- Dice driven by a supply of words; a one when the supply is exhausted. -/
def Dice.ofWords : Dice (List UInt32) where
  next sides words := (drawFace? sides words).getD (1, [])

end DiceBot.Roll
