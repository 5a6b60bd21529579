import DiceBot.Text.Blank

/-!
The letters and digits of ASCII as ranges of codes, and its visible characters as no blanks.
-/

namespace DiceBot.Text

variable {c : Char}

theorem isUpper_iff : c.isUpper = true ↔ 0x41 ≤ c.toNat ∧ c.toNat ≤ 0x5A :=
  decide_eq_true_iff

theorem isLower_iff : c.isLower = true ↔ 0x61 ≤ c.toNat ∧ c.toNat ≤ 0x7A := by
  change (decide (0x61 ≤ c.toNat) && decide (c.toNat ≤ 0x7A)) = true ↔ _
  rw [Bool.and_eq_true, decide_eq_true_iff, decide_eq_true_iff]

theorem isDigit_iff : c.isDigit = true ↔ 0x30 ≤ c.toNat ∧ c.toNat ≤ 0x39 := by
  change (decide (0x30 ≤ c.toNat) && decide (c.toNat ≤ 0x39)) = true ↔ _
  rw [Bool.and_eq_true, decide_eq_true_iff, decide_eq_true_iff]

theorem isAlphanum_iff :
    c.isAlphanum = true ↔ (c.isUpper = true ∨ c.isLower = true) ∨ c.isDigit = true := by
  change ((c.isUpper || c.isLower) || c.isDigit) = true ↔ _
  rw [Bool.or_eq_true, Bool.or_eq_true]

theorem isBlank_of_visible (h : 0x20 < c.toNat) (h' : c.toNat < 0x7F) : isBlank c = false := by
  unfold isBlank
  simp only [Bool.or_eq_false_iff, Bool.and_eq_false_iff, decide_eq_false_iff_not,
    beq_eq_false_iff_ne]
  omega

theorem isBlank_of_isAlphanum (h : c.isAlphanum = true) : isBlank c = false := by
  rw [isAlphanum_iff, isUpper_iff, isLower_iff, isDigit_iff] at h
  apply isBlank_of_visible <;> omega

theorem toNat_toLower (h : 0x41 ≤ c.toNat ∧ c.toNat ≤ 0x5A) : c.toLower.toNat = c.toNat + 32 := by
  have hcode : c.toLower.toNat = (c.val + 32).toNat := congrArg Char.toNat (dif_pos h)
  rw [hcode, UInt32.toNat_add]
  change (c.toNat + 32) % 2 ^ 32 = _
  omega

theorem toLower_eq_self (h : ¬ (0x41 ≤ c.toNat ∧ c.toNat ≤ 0x5A)) : c.toLower = c := dif_neg h

theorem isAlphanum_toLower (h : c.isAlphanum = true) : c.toLower.isAlphanum = true := by
  by_cases hu : 0x41 ≤ c.toNat ∧ c.toNat ≤ 0x5A
  · rw [isAlphanum_iff, isLower_iff, toNat_toLower hu]
    omega
  · rwa [toLower_eq_self hu]

end DiceBot.Text
