import DiceBot.Text.Numeral
import Mathlib.Data.List.TakeWhile

/-!
Runs of decimal digits: where they end, and the numbers that they denote.
-/

namespace DiceBot.Text

def IsRun (s : List Char) : Prop := ∀ c ∈ s, c.isDigit = true

/-- No digit stands at the start of the text, so that a run of digits before it is maximal. -/
def EndsRun (s : List Char) : Prop := ∀ c ∈ s.head?, c.isDigit = false

theorem takeWhile_run {digits rest : List Char} (hd : IsRun digits) (he : EndsRun rest) :
    (digits ++ rest).takeWhile Char.isDigit = digits := by
  rw [List.takeWhile_append_of_pos hd]
  cases rest with
  | nil => simp
  | cons c rest => simp [he c (by simp)]

theorem dropWhile_run {digits rest : List Char} (hd : IsRun digits) (he : EndsRun rest) :
    (digits ++ rest).dropWhile Char.isDigit = rest := by
  rw [List.dropWhile_append_of_pos hd]
  cases rest with
  | nil => rfl
  | cons c rest => simp [he c (by simp)]

theorem isRun_takeWhile (s : List Char) : IsRun (s.takeWhile Char.isDigit) :=
  fun _ hc => List.mem_takeWhile_imp hc

theorem endsRun_dropWhile (s : List Char) : EndsRun (s.dropWhile Char.isDigit) := by
  intro c hc
  have h := List.head?_dropWhile_not Char.isDigit s
  rw [Option.mem_def.mp hc] at h
  exact h

theorem endsRun_cons {c : Char} {s : List Char} (h : c.isDigit = false) : EndsRun (c :: s) := by
  intro d hd
  cases hd
  exact h

theorem endsRun_append {c : Char} {s : List Char} (hs : s.head? = some c)
    (hc : c.isDigit = false) (x : List Char) : EndsRun (s ++ x) := by
  intro d hd
  rw [List.head?_append, hs] at hd
  cases hd
  exact hc

theorem isRun_append {a b : List Char} (ha : IsRun a) (hb : IsRun b) : IsRun (a ++ b) := by
  intro c hc
  rcases List.mem_append.mp hc with hc | hc
  · exact ha c hc
  · exact hb c hc

theorem isRun_toString (n : Nat) : IsRun (toString n).toList := by
  intro c hc
  rw [Nat.toString_eq_repr, Nat.toList_repr] at hc
  exact Nat.isDigit_of_mem_toDigits (by decide) (by decide) hc

theorem numeral_toString (n : Nat) : numeral (toString n).toList = n := by
  rw [Nat.toString_eq_repr, Nat.toList_repr]
  exact Nat.ofDigitChars_ten_toDigits

theorem readDigits?_run {s : List Char} (h : IsRun s) (hne : s ≠ []) :
    readDigits? s = some (numeral s) :=
  if_pos ⟨hne, List.all_eq_true.mpr h⟩

/-- A text of decimal digits, which a plus sign may stand before, and its number. -/
def Decimal (text : String) (n : Nat) : Prop :=
  ∃ digits, digits ≠ [] ∧ IsRun digits ∧
    (text.toList = digits ∨ text.toList = '+' :: digits) ∧ Nat.ofDigitChars 10 digits 0 = n

theorem readNatBelow?_eq_some_iff {bound n : Nat} {text : String} :
    readNatBelow? bound text = some n ↔ Decimal text n ∧ n < bound := by
  have hdigits (s : List Char) :
      readDigits? s = some n ↔ s ≠ [] ∧ IsRun s ∧ Nat.ofDigitChars 10 s 0 = n := by
    simp [readDigits?, IsRun, numeral, and_assoc]
  have hnat : readNat? text.toList = some n ↔ Decimal text n := by
    unfold readNat? Decimal
    split
    case h_1 digits htext =>
      rw [hdigits, htext]
      constructor
      · rintro ⟨hne, hrun, hn⟩
        exact ⟨digits, hne, hrun, .inr rfl, hn⟩
      · rintro ⟨_, hne, hrun, rfl | h, hn⟩
        · cases hrun '+' List.mem_cons_self
        · cases h
          exact ⟨hne, hrun, hn⟩
    case h_2 hplus =>
      rw [hdigits]
      constructor
      · rintro ⟨hne, hrun, hn⟩
        exact ⟨text.toList, hne, hrun, .inl rfl, hn⟩
      · rintro ⟨digits, hne, hrun, rfl | h, hn⟩
        · exact ⟨hne, hrun, hn⟩
        · exact absurd h (hplus digits)
  rw [readNatBelow?, Option.filter_eq_some_iff, hnat, decide_eq_true_eq]

end DiceBot.Text
