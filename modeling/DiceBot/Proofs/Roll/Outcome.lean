import DiceBot.Roll.Outcome
import Mathlib.Algebra.GroupWithZero.Nat
import Mathlib.Data.List.Induction

/-!
What is drawn of the dice for a roll, and how the drawn faces are counted.
-/

namespace DiceBot.Roll

variable {σ : Type}

/-- One die that was drawn. -/
structure Draw where
  sides : Nat
  face : Nat
  deriving DecidableEq, Repr

namespace Dice

/-- Dice that always show a face of the die that is drawn. -/
def Honest (dice : Dice σ) : Prop :=
  ∀ sides s, 0 < sides → 1 ≤ (dice.next sides s).1 ∧ (dice.next sides s).1 ≤ sides

/-- The same dice, with what was drawn of them beside their state. -/
def recorded (dice : Dice σ) : Dice (σ × List Draw) where
  next sides state :=
    let (face, s) := dice.next sides state.1
    (face, s, state.2 ++ [⟨sides, face⟩])

theorem draw_succ (dice : Dice σ) (sides count : Nat) (s : σ) :
    dice.draw sides (count + 1) s =
      ((dice.next sides s).1 :: (dice.draw sides count (dice.next sides s).2).1,
        (dice.draw sides count (dice.next sides s).2).2) := rfl

theorem next_recorded (dice : Dice σ) (sides : Nat) (s : σ) (draws : List Draw) :
    dice.recorded.next sides (s, draws) =
      ((dice.next sides s).1, (dice.next sides s).2,
        draws ++ [⟨sides, (dice.next sides s).1⟩]) := rfl

theorem length_draw (dice : Dice σ) (sides count : Nat) (s : σ) :
    (dice.draw sides count s).1.length = count := by
  induction count generalizing s with
  | zero => rfl
  | succ count ih => exact congrArg Nat.succ (ih (dice.next sides s).2)

theorem Honest.face_range {dice : Dice σ} (h : dice.Honest) {sides : Nat} (hs : 0 < sides)
    (count : Nat) (s : σ) : ∀ face ∈ (dice.draw sides count s).1, 1 ≤ face ∧ face ≤ sides := by
  induction count generalizing s with
  | zero =>
    intro face hf
    cases hf
  | succ count ih =>
    intro face hf
    rcases List.mem_cons.mp hf with rfl | hf
    · exact h sides s hs
    · exact ih (dice.next sides s).2 face hf

/-- The record grows by the faces in drawing order, and is all that it changes. -/
theorem draw_recorded (dice : Dice σ) (sides count : Nat) (s : σ) (draws : List Draw) :
    dice.recorded.draw sides count (s, draws) =
      ((dice.draw sides count s).1, (dice.draw sides count s).2,
        draws ++ (dice.draw sides count s).1.map (Draw.mk sides)) := by
  induction count generalizing s draws with
  | zero => simp [draw]
  | succ count ih =>
    rw [draw_succ, next_recorded]
    simp only [ih, draw_succ, List.map_cons, List.append_assoc, List.singleton_append]

end Dice

/-- Hits and misses are as many as the faces that were marked, and one more for each critical. -/
def Score.Counts (s : Score) (marked : Nat) : Prop :=
  s.hits + s.misses = marked + s.criticalHits + s.criticalMisses

theorem Score.Counts.mark {s : Score} {marked : Nat} (h : s.Counts marked)
    (threshold sides face : Nat) : (s.mark threshold sides face).Counts (marked + 1) := by
  unfold Counts Score.mark at *
  split
  · split <;> dsimp only <;> omega
  · split <;> dsimp only <;> omega

theorem Score.Counts.foldl_mark {s : Score} {marked : Nat} (h : s.Counts marked)
    (threshold sides : Nat) (faces : List Nat) :
    (faces.foldl (Score.mark threshold sides) s).Counts (marked + faces.length) := by
  induction faces generalizing s marked with
  | nil => exact h
  | cons face faces ih =>
    have hrest := ih (h.mark threshold sides face)
    rw [List.length_cons, Nat.add_comm faces.length, ← Nat.add_assoc]
    exact hrest

theorem Score.ofFaces_counts (threshold sides : Nat) (faces : List Nat) :
    (Score.ofFaces threshold sides faces).Counts faces.length := by
  have hzero : Score.zero.Counts 0 := rfl
  have h := hzero.foldl_mark threshold sides faces
  rwa [Nat.zero_add] at h

namespace Score

/-- The score of faces told by how many of them there are of each kind. -/
def counted (threshold sides : Nat) (faces : List Nat) : Score where
  hits := faces.countP (threshold ≤ ·) + faces.countP fun f => threshold ≤ f ∧ f = sides
  criticalHits := faces.countP fun f => threshold ≤ f ∧ f = sides
  misses := faces.countP (· < threshold) + faces.countP fun f => f < threshold ∧ f = 1
  criticalMisses := faces.countP fun f => f < threshold ∧ f = 1

theorem mark_counted (threshold sides : Nat) (faces : List Nat) (face : Nat) :
    (counted threshold sides faces).mark threshold sides face =
      counted threshold sides (faces ++ [face]) := by
  unfold mark
  by_cases hhit : threshold ≤ face
  · have hmiss : ¬ face < threshold := Nat.not_lt.mpr hhit
    by_cases hhighest : face = sides
    · subst hhighest
      simp [counted, hhit, hmiss]
      omega
    · simp [counted, hhit, hmiss, hhighest]
      omega
  · have hmiss : face < threshold := Nat.lt_of_not_le hhit
    by_cases hone : face = 1
    · subst hone
      simp [counted, hhit, hmiss]
      omega
    · simp [counted, hhit, hmiss, hone]
      omega

theorem ofFaces_concat (threshold sides : Nat) (faces : List Nat) (face : Nat) :
    ofFaces threshold sides (faces ++ [face]) =
      (ofFaces threshold sides faces).mark threshold sides face := by
  simp [ofFaces]

theorem ofFaces_eq_counted (threshold sides : Nat) (faces : List Nat) :
    ofFaces threshold sides faces = counted threshold sides faces := by
  induction faces using List.reverseRecOn with
  | nil => rfl
  | append_singleton faces face ih => rw [ofFaces_concat, ih, mark_counted]

end Score

/-- Hits and misses counted by faces. The highest face is always in reach of the threshold, a one is
below it from two on. -/
theorem Score.ofFaces_counts_faces {threshold sides : Nat} (h : threshold ≤ sides)
    (faces : List Nat) :
    let score := ofFaces threshold sides faces
    score.criticalHits = faces.count sides ∧
    score.criticalMisses = (if 2 ≤ threshold then faces.count 1 else 0) ∧
    score.hits = faces.countP (threshold ≤ ·) + score.criticalHits ∧
    score.misses = faces.countP (· < threshold) + score.criticalMisses := by
  intro score
  have hscore : score = counted threshold sides faces := ofFaces_eq_counted threshold sides faces
  rw [hscore]
  refine ⟨?_, ?_, rfl, rfl⟩
  · refine List.countP_congr fun face _ => ?_
    simp only [decide_eq_true_eq, beq_iff_eq]
    exact ⟨And.right, fun he => ⟨he ▸ h, he⟩⟩
  · split
    case isTrue ht =>
      refine List.countP_congr fun face _ => ?_
      simp only [decide_eq_true_eq, beq_iff_eq]
      exact ⟨And.right, fun he => ⟨he ▸ ht, he⟩⟩
    case isFalse ht =>
      refine List.countP_eq_zero.mpr fun face _ => ?_
      simp only [decide_eq_true_eq]
      omega

theorem Request.tally_total (r : Request) (faces : List Nat) :
    (r.tally faces).total = match r.modifier with
      | none => (faces.sum : Int)
      | some ⟨.plus, amount⟩ => faces.sum + amount
      | some ⟨.minus, amount⟩ => faces.sum - amount := by
  have hsum : faces.foldl (· + ·) 0 = faces.sum := List.sum_eq_foldl.symm
  rw [tally, hsum, adjust]
  cases r.modifier with
  | none => rfl
  | some m =>
    obtain ⟨sign, amount⟩ := m
    cases sign <;> rfl

theorem Request.evaluate_recorded (r : Request) (dice : Dice σ) (s : σ) (draws : List Draw) :
    r.evaluate dice.recorded (s, draws) =
      ((r.evaluate dice s).1, (r.evaluate dice s).2,
        draws ++ (r.evaluate dice s).1.faces.map (Draw.mk r.sides)) := by
  simp only [Request.evaluate, Dice.draw_recorded]
  rfl

end DiceBot.Roll
